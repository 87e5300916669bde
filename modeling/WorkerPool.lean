import WorkerPool.Pool
import WorkerPool.Step
import WorkerPool.Invariant
import WorkerPool.Frame
import WorkerPool.Admission
import WorkerPool.Metrics
import WorkerPool.Shutdown
import WorkerPool.Delivery
import WorkerPool.Progress
import WorkerPool.Safety
import WorkerPool.Completion
import WorkerPool.Lifecycle
import WorkerPool.Snapshot
import WorkerPool.Backpressure
import WorkerPool.Jobs
import WorkerPool.WindDown
