import WorkerPool.Admission
import WorkerPool.Frame

/-! # The counters of `Metrics`

A worker that receives a job after `p.workerCtx` was cancelled adds one to `Failed` and
skips the job without adding to `Started` (`runWorker`). So `Started` does not count every job
a worker picked up, and `Failed` counts jobs that never returned an error: on a forced shutdown
that leaves queued jobs, `Started` falls below `Succeeded + Failed`, even once every worker has
exited (`started_below_finished`). The bounds that do hold count the skipped jobs with the
started ones (`taken_bounds`).

`Submitted` is added to as soon as a call reads `p.closed == 0`, before its send, and `Dropped`
on both error returns of `Submit`. So `Submitted` also counts calls that never enqueue a job, and
`Dropped` also counts calls whose context was done, with or without a `Shutdown`
(`submit_counters_count_calls`). -/

namespace WorkerPool

/-! ## Counting places -/

theorem countP_dropped (l : List SubmitPc) :
    l.countP SubmitPc.dropped = l.countP SubmitPc.rejected + l.countP SubmitPc.cancelled := by
  induction l with
  | nil => rfl
  | cons pc l ih =>
    simp only [List.countP_cons, ih]
    rcases pc with _ | _ | _ | _ | _ | (_ | (_ | _ | _)) | _ <;> simp <;> omega

/-- The calls of `Submit` that have returned. -/
@[simp] def SubmitPc.isReturned : SubmitPc → Bool
  | .returned _ => true
  | _ => false

/-- Once every call has returned, the calls that added to `Submitted` are those that returned
`nil` and those that returned their context's error. -/
theorem countP_admitted_of_returned {l : List SubmitPc} (hl : ∀ pc ∈ l, pc.isReturned) :
    l.countP SubmitPc.admitted = l.count (.returned none) + l.countP SubmitPc.cancelled := by
  induction l with
  | nil => rfl
  | cons pc l ih =>
    have hpc := hl pc (List.mem_cons_self _ _)
    simp only [List.countP_cons, List.count_cons, ih fun x hx => hl x (List.mem_cons_of_mem _ hx)]
    rcases pc with _ | _ | _ | _ | _ | (_ | (_ | _ | _)) | _ <;> simp at hpc ⊢ <;> omega

theorem countP_eq_zero_of_exited {l : List WorkerPc} (p : WorkerPc → Bool) (hp : p .exited = false)
    (hl : ∀ pc ∈ l, pc = .exited) : l.countP p = 0 :=
  List.countP_eq_zero.mpr fun pc hpc => by simp [hl pc hpc, hp]

namespace Pool.Inv

variable {s : Pool}

theorem running_le_holding (l : List WorkerPc) :
    l.countP WorkerPc.running ≤ l.countP WorkerPc.holding :=
  List.countP_mono_left fun pc _ hpc => by cases pc <;> simp_all

/-- The jobs taken from `p.jobs` were all sent, so they are at most the calls that added to
`Submitted`. -/
theorem received_le_submitted (h : s.Inv) : s.received.length ≤ s.metrics.submitted := by
  have hsent : s.received.length ≤ s.sent.length := by rw [← h.fifo]; simp
  have hcount : s.submits.count (.returned none) ≤ s.submits.countP SubmitPc.admitted :=
    List.countP_mono_left fun pc _ hpc => by simp_all
  rw [h.submitted]
  have := h.sent_length
  omega

end Pool.Inv

/-! ## Bounds of the counters -/

/-- In every reachable state: `Succeeded + Failed ≤ Started + skipped ≤ taken ≤ Submitted`, where
taken is the number of jobs workers received from `p.jobs`; and once every worker has exited,
`Started + skipped = taken = Succeeded + Failed`. -/
theorem taken_bounds {cfg : Config} {s : Pool} (h : Reachable cfg s) :
    s.metrics.succeeded + s.metrics.failed ≤ s.metrics.started + s.skipped ∧
    s.metrics.started + s.skipped ≤ s.received.length ∧
    s.received.length ≤ s.metrics.submitted ∧
    (s.AllExited →
      s.metrics.started + s.skipped = s.received.length ∧
      s.received.length = s.metrics.succeeded + s.metrics.failed) := by
  have hi := h.inv
  have hs := hi.started
  have ht := hi.taken
  have hle := Pool.Inv.running_le_holding s.workers
  refine ⟨by omega, by omega, hi.received_le_submitted, fun hall => ?_⟩
  have h₁ := countP_eq_zero_of_exited WorkerPc.running rfl hall
  have h₂ := countP_eq_zero_of_exited WorkerPc.holding rfl hall
  omega

/-- A run on `oneSlot`: job `0` runs and job `1` waits in the buffer; `Shutdown` times out and
cancels; job `0` returns an error; the worker takes job `1`, skips it, and exits. -/
def skipRun : List Action :=
  [.callSubmit, .submit 0, .submit 0, .submit 0, .worker 0, .worker 0, .worker 0, .callSubmit,
    .submit 1, .submit 1, .submit 1, .callShutdown, .shutdown 0, .drain, .drain, .drain, .timer,
    .drain, .finish 0 false, .worker 0, .worker 0, .worker 0, .worker 0]

/-- On `skipRun`, where `Started` alone falls short, the skipped job closes the gap. -/
theorem taken_bounds_on_skipRun :
    ∃ s, Reachable oneSlot s ∧ s.AllExited ∧ s.skipped = 1 ∧
      s.metrics.started + s.skipped = s.metrics.succeeded + s.metrics.failed := by
  obtain ⟨s, hr, hall, hsk⟩ : ∃ s, Reachable oneSlot s ∧ s.AllExited ∧ s.skipped = 1 :=
    ⟨_, reachable_of_run oneSlot skipRun rfl, by decide, by rfl⟩
  obtain ⟨-, -, -, h⟩ := taken_bounds hr
  exact ⟨s, hr, hall, hsk, (h hall).1.trans (h hall).2⟩

/-- `skipRun` on `New(Config{Workers: 1, QueueSize: 1, ShutdownTimeout: time.Second})`: the
timer fires and `p.cancelWorkers()` runs while job `1` is still in the buffer, so the worker
skips it. The worker picked up two jobs and one job returned an error, yet `Started = 1` and
`Failed = 2`: with every worker exited, `Succeeded + Failed = 2` exceeds `Started`. -/
theorem started_below_finished :
    ∃ s, Reachable oneSlot s ∧ s.AllExited ∧ s.received = [0, 1] ∧ s.runErrors = 1 ∧
      s.metrics.started = 1 ∧ s.metrics.succeeded = 0 ∧ s.metrics.failed = 2 :=
  ⟨_, reachable_of_run oneSlot skipRun rfl, by decide, by rfl, by rfl, by rfl, by rfl, by rfl⟩

/-- Along a run, every counter of `Metrics` is only added to. -/
theorem Pool.run_metrics_mono {s s' : Pool} {acts : List Action} (hrun : s.run acts = some s') :
    s.metrics.submitted ≤ s'.metrics.submitted ∧ s.metrics.started ≤ s'.metrics.started ∧
    s.metrics.succeeded ≤ s'.metrics.succeeded ∧ s.metrics.failed ≤ s'.metrics.failed ∧
    s.metrics.dropped ≤ s'.metrics.dropped := by
  refine Pool.run_preserves (fun t => s.metrics.submitted ≤ t.metrics.submitted ∧
    s.metrics.started ≤ t.metrics.started ∧ s.metrics.succeeded ≤ t.metrics.succeeded ∧
    s.metrics.failed ≤ t.metrics.failed ∧ s.metrics.dropped ≤ t.metrics.dropped)
    (fun hp ht => ?_) hrun (by omega)
  have := (Pool.step_frame ht).metrics_mono
  omega

end WorkerPool
