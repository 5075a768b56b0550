import CancelSafeFutures.Async.Poll
import CancelSafeFutures.Async.Loop
import CancelSafeFutures.Async.Executor
import CancelSafeFutures.Async.Transition
import CancelSafeFutures.Async.Refinement
import CancelSafeFutures.Async.FutureSet
import CancelSafeFutures.Async.Stream
import CancelSafeFutures.Async.Woken
import CancelSafeFutures.Async.MaybeDone
import CancelSafeFutures.Async.Results
import CancelSafeFutures.Async.Sink
import CancelSafeFutures.Async.Channel
import CancelSafeFutures.Async.Action
import CancelSafeFutures.Async.LockInvariant
import CancelSafeFutures.Stream.ForEachConcurrentThenTry
import CancelSafeFutures.Stream.ForEachWakeup
import CancelSafeFutures.Stream.ForEachCompletion
import CancelSafeFutures.Stream.ForEachSteps
import CancelSafeFutures.Stream.ForEachBound
import CancelSafeFutures.Stream.ForEachSequential
import CancelSafeFutures.Stream.ForEachProgress
import CancelSafeFutures.Stream.CollectThenTry
import CancelSafeFutures.Stream.CollectRuns
import CancelSafeFutures.Stream.StreamWakeup
import CancelSafeFutures.Future.JoinAllThenTry
import CancelSafeFutures.Future.JoinAllRuns
import CancelSafeFutures.Future.Afterwards
import CancelSafeFutures.Macros.JoinThenTry
import CancelSafeFutures.Macros.JoinAgreement
import CancelSafeFutures.Macros.JoinRotation
import CancelSafeFutures.Macros.JoinWakeup
import CancelSafeFutures.Macros.JoinExpansion
import CancelSafeFutures.Sink.Reserve
import CancelSafeFutures.Sink.Client
import CancelSafeFutures.Sink.RetryLoop
import CancelSafeFutures.Sink.FlushPhases
import CancelSafeFutures.Sink.Fused
import CancelSafeFutures.Sink.CancelSafety
import CancelSafeFutures.Sink.SinkWakeup
import CancelSafeFutures.CoopCancel.Pair
import CancelSafeFutures.CoopCancel.Delivery
import CancelSafeFutures.CoopCancel.Waiters
import CancelSafeFutures.CoopCancel.CancelSafety
import CancelSafeFutures.CoopCancel.DataWriter
import CancelSafeFutures.Sync.Poison
import CancelSafeFutures.Sync.Mutex
import CancelSafeFutures.Sync.UnderLock
import CancelSafeFutures.Sync.Serialization
import CancelSafeFutures.Sync.Poisoning
import CancelSafeFutures.Sync.PanicHistory
import CancelSafeFutures.Sync.PoisonGate
import CancelSafeFutures.Sync.LockQueue
import CancelSafeFutures.Sync.Availability
import CancelSafeFutures.Sync.AtomicVisits
