import Mathlib.Data.List.Basic

/-! # The state of a worker pool and of the goroutines that act on it

A shallow embedding of `workerpool/pool.go`. The global state `Pool` holds the fields of the
Go struct `Pool` that the code reads (the buffer of the channel `p.jobs` and whether it is
closed, the flag `p.closed`, whether `p.workerCtx` is cancelled, the `sync.Once`, the
`sync.WaitGroup` counter and the five counters of `Metrics`), together with the program
counter of every goroutine that acts on the pool:

* one `SubmitPc` for each call of `(*Pool).Submit`; the job of call `i` is named `i`;
* one `WorkerPc` for each goroutine running `(*Pool).runWorker`;
* one `ShutdownPc` for each call of `(*Pool).Shutdown`; the body of the function passed to
  `p.once.Do` runs in the goroutine of the call that won the `sync.Once`, and its place is
  kept in `OnceState.running`;
* the goroutine `go func() { p.wg.Wait(); close(done) }()` started by that body
  (`WaiterPc`; its `done` channel is closed exactly when it is at `WaiterPc.done`).

Jobs are opaque: a job's invocation is the step that starts it and its return is a step of
its own, with the returned error chosen by the environment. Time is not modelled: the timer
of `time.After(p.cfg.ShutdownTimeout)` may fire at any moment. Logging is output only and is
left out.

The state also carries history variables that the Go program does not store: the sequence
of jobs sent into `p.jobs` and received from it, and four counts of events. They are only
written, never read, by the steps (`Step.lean`). -/

namespace WorkerPool

/-- `Config`. The `Logger` field is not modelled. -/
structure Config where
  workers : Int
  queueSize : Int
  /-- A `time.Duration`, in nanoseconds. -/
  shutdownTimeout : Int
  deriving DecidableEq, Repr

/-- `time.Second`, in nanoseconds. -/
def second : Int := 1000000000

/-- `(*Config).withDefaults`. -/
def Config.withDefaults (c : Config) : Config :=
  { c with
    workers := if c.workers ≤ 0 then 1 else c.workers
    shutdownTimeout := if c.shutdownTimeout ≤ 0 then 30 * second else c.shutdownTimeout }

/-- Every default passes the check that chose it: `Workers` becomes `max 1 Workers`,
`ShutdownTimeout` comes out positive, `QueueSize` is kept, and a second call changes nothing. -/
theorem Config.withDefaults_spec (c : Config) :
    c.withDefaults.workers = max 1 c.workers ∧ 0 < c.withDefaults.shutdownTimeout ∧
      c.withDefaults.queueSize = c.queueSize ∧ c.withDefaults.withDefaults = c.withDefaults := by
  refine ⟨?_, ?_, rfl, ?_⟩ <;> simp only [withDefaults, second]
  · split <;> omega
  · split <;> omega
  · congr 1 <;> split_ifs <;> omega

/-- `Metrics`. The fields are `int64` counters in the source; they only count events, and
their overflow after `2^63` events is not modelled. -/
structure Metrics where
  submitted : Nat
  started : Nat
  succeeded : Nat
  failed : Nat
  dropped : Nat
  deriving DecidableEq, Repr

/-- What `ctx.Err()` returns once a caller's context is done. -/
inductive CtxErr
  /-- `context.Canceled`. -/
  | canceled
  /-- `context.DeadlineExceeded`. -/
  | deadlineExceeded
  deriving DecidableEq, Repr

/-- The non-nil errors the pool returns. -/
inductive PoolError
  /-- `ErrPoolClosed`. -/
  | errPoolClosed
  /-- `ErrShutdownTimeout`. -/
  | errShutdownTimeout
  /-- The error of `fmt.Errorf("submit cancelled: %w", ctx.Err())`. -/
  | submitCancelled (cause : CtxErr)
  deriving DecidableEq, Repr

/-- Where a call of `(*Pool).Submit` is. -/
inductive SubmitPc
  /-- About to run `atomic.LoadInt32(&p.closed)`. -/
  | load
  /-- Read `1`; about to add one to `Dropped`. -/
  | reject
  /-- Read `0`; about to add one to `Submitted`. -/
  | accept
  /-- In the `select` between `p.jobs <- job` and `<-ctx.Done()`. -/
  | select
  /-- The `select` took `<-ctx.Done()`; about to add one to `Dropped`. -/
  | withdraw (cause : CtxErr)
  /-- Returned `r` (`none` is `nil`). -/
  | returned (r : Option PoolError)
  /-- The send ran on the closed channel `p.jobs`, which panics. -/
  | panicked
  deriving DecidableEq, Repr

/-- Where a goroutine running `(*Pool).runWorker` is. -/
inductive WorkerPc
  /-- At `for job := range p.jobs`. -/
  | recv
  /-- Holds job `j`; about to test `p.workerCtx.Err() != nil`. -/
  | check (j : Nat)
  /-- The context was cancelled; about to add one to `Failed` and `continue`. -/
  | skip (j : Nat)
  /-- About to add one to `Started` and call `job(p.workerCtx)`. -/
  | start (j : Nat)
  /-- Inside `job(p.workerCtx)`. -/
  | run (j : Nat)
  /-- The loop has ended and the deferred `p.wg.Done()` has run. -/
  | exited
  deriving DecidableEq, Repr

/-- Where a call of `(*Pool).Shutdown` is. -/
inductive ShutdownPc
  /-- At `p.once.Do(...)`. -/
  | enter
  /-- Running the function passed to `p.once.Do`; its place is in `OnceState.running`. -/
  | inDo
  /-- Returned `r`. -/
  | returned (r : Option PoolError)
  deriving DecidableEq, Repr

/-- Where the body of the function passed to `p.once.Do` is. -/
inductive DrainPc
  /-- About to run `atomic.StoreInt32(&p.closed, 1)`. -/
  | store
  /-- About to run `close(p.jobs)`. -/
  | close
  /-- About to make `done` and start the goroutine that waits on `p.wg`. -/
  | spawn
  /-- In the `select` between `<-done` and the timer. -/
  | select
  /-- The timer fired; about to call `p.cancelWorkers()`. -/
  | cancel
  /-- At `<-done` after cancelling. -/
  | await
  deriving DecidableEq, Repr

/-- The `sync.Once` of `Shutdown`. `running k pc`: call `k` holds the once's mutex and runs the
function at `pc`. `done k`: the function has returned; `k` records which call ran it. -/
inductive OnceState
  | idle
  | running (owner : Nat) (pc : DrainPc)
  | done (owner : Nat)
  deriving DecidableEq, Repr

/-- Where the goroutine `func() { p.wg.Wait(); close(done) }` is. -/
inductive WaiterPc
  /-- Not started yet. -/
  | idle
  /-- In `p.wg.Wait()`. -/
  | wait
  /-- Has run `close(done)`. -/
  | done
  deriving DecidableEq, Repr

/-- The pool and the goroutines acting on it. -/
structure Pool where
  /-- The capacity of `p.jobs`, `cfg.QueueSize`. -/
  queueSize : Nat
  /-- The jobs buffered in `p.jobs`, oldest first. -/
  jobs : List Nat
  /-- `close(p.jobs)` has run. -/
  jobsClosed : Bool
  /-- `p.closed == 1`. -/
  closed : Bool
  /-- `p.workerCtx.Err() != nil`. -/
  cancelled : Bool
  once : OnceState
  /-- The counter of `p.wg`. -/
  wg : Nat
  waiter : WaiterPc
  metrics : Metrics
  submits : List SubmitPc
  workers : List WorkerPc
  shutdowns : List ShutdownPc
  /-- History: the jobs sent into `p.jobs`, in the order of the sends. -/
  sent : List Nat
  /-- History: the jobs received from `p.jobs` by a worker, in the order of the receives. -/
  received : List Nat
  /-- History: the jobs a worker received and skipped because `p.workerCtx` was cancelled. -/
  skipped : Nat
  /-- History: the job invocations made while `p.workerCtx` was cancelled. -/
  lateStarts : Nat
  /-- History: the job invocations that returned a non-nil error. -/
  runErrors : Nat
  /-- History: the calls of `p.cancelWorkers()`. -/
  cancels : Nat
  deriving DecidableEq, Repr

/-- `New`: the state right after `New(cfg)` returns, with `max 1 cfg.Workers` workers at their
receive. `make(chan Job, cfg.QueueSize)` panics on a negative size: `none`. -/
def Pool.new (cfg : Config) : Option Pool :=
  let cfg := cfg.withDefaults
  if cfg.queueSize < 0 then none
  else some
    { queueSize := cfg.queueSize.toNat
      jobs := []
      jobsClosed := false
      closed := false
      cancelled := false
      once := .idle
      wg := cfg.workers.toNat
      waiter := .idle
      metrics := ⟨0, 0, 0, 0, 0⟩
      submits := []
      workers := List.replicate cfg.workers.toNat .recv
      shutdowns := []
      sent := []
      received := []
      skipped := 0
      lateStarts := 0
      runErrors := 0
      cancels := 0 }

end WorkerPool
