import WorkerPool.Frame
import WorkerPool.Metrics

/-! # Shutdown

* The function passed to `p.once.Do` runs once, in the call that wins the once: it only moves
  forward, its owner never changes, and it calls `p.cancelWorkers()` at most once. Every call
  of `Shutdown` returns after it has finished. The winner returns its own `shutdownErr`;
  every other call returns its own `shutdownErr`, which nothing sets, so `nil`
  (`shutdown_once`), also after a forced shutdown (`shutdown_repeat_returns_nil`).
* When any call returns, every worker has exited, `p.wg` is zero and `p.jobs` is closed and
  empty; from then on no step changes `Started`, `Succeeded` or `Failed`
  (`shutdown_returns_after_workers`).
* `p.workerCtx` is cancelled only by the winner, after the timer fired, after the store and
  the close; the winner returns `ErrShutdownTimeout` exactly when it cancelled; and a run
  whose winner returns `nil` never skips a job nor invokes one with a cancelled context
  (`cancel_only_on_timeout`). -/

namespace WorkerPool

/-- Every call of `Submit` has returned. -/
def Pool.SubmitsReturned (s : Pool) : Prop := ∀ pc ∈ s.submits, pc.isReturned

instance (s : Pool) : Decidable s.SubmitsReturned :=
  inferInstanceAs (Decidable (∀ pc ∈ s.submits, _))

namespace Pool.Inv

variable {s : Pool}

theorem allExited_of_wg (h : s.Inv) (hwg : s.wg = 0) : s.AllExited := fun pc hpc => by
  rw [h.wg] at hwg
  simpa using List.countP_eq_zero.mp hwg pc hpc

/-- Once a call of `Shutdown` has returned, the once has run its function to the end. -/
theorem done_of_returned {k : Nat} {r : Option PoolError} (h : s.Inv) (hk : s.shutdowns[k]? = some (.returned r)) :
    ∃ first, s.once = .done first ∧ s.waiter = .done ∧ s.wg = 0 ∧ s.AllExited ∧
      s.closed = true ∧ s.jobsClosed = true := by
  obtain ⟨first, honce, -⟩ := h.returned k r hk
  have hw := h.onceDone first honce
  have hwg := h.waiterDone hw
  exact ⟨first, honce, hw, hwg, h.allExited_of_wg hwg, h.closedFlag.mpr (by simp [honce]),
    h.jobsClosedFlag.mpr (by simp [honce])⟩

/-- With every worker exited, every `Submit` returned and the buffer empty, each call that added
to `Submitted` either had its job finished or returned its context's error, and each call that
added to `Dropped` returned `ErrPoolClosed` or its context's error. -/
theorem settled (h : s.Inv) (hall : s.AllExited) (hjobs : s.jobs = [])
    (hsub : s.SubmitsReturned) :
    s.metrics.submitted =
      s.metrics.succeeded + s.metrics.failed + s.submits.countP SubmitPc.cancelled ∧
    s.metrics.dropped =
      s.submits.countP SubmitPc.rejected + s.submits.countP SubmitPc.cancelled := by
  have hsent : s.received.length = s.sent.length := by rw [← h.fifo, hjobs]; simp
  have ht := h.taken
  have := h.sent_length
  rw [countP_eq_zero_of_exited WorkerPc.holding rfl hall] at ht
  rw [h.submitted, h.dropped, countP_admitted_of_returned hsub, countP_dropped]
  exact ⟨by omega, rfl⟩

end Pool.Inv

/-! ## One protocol, many calls -/

/-- A run on `oneSlot`: a first `Shutdown` times out, cancels, and returns once the idle worker
has exited; then a second call is made. -/
def forcedRun : List Action :=
  [.callShutdown, .shutdown 0, .drain, .drain, .drain, .timer, .drain, .worker 0, .waiter, .drain,
    .callShutdown, .shutdown 1]

/-- For any number of calls of `Shutdown`: at most one runs the function of `p.once.Do` at a
time; the function only moves forward and keeps its owner, so its store of `p.closed`, its
`close(p.jobs)` and its start of the waiter each happen once; it calls `p.cancelWorkers()` at
most once. A call that has returned did so after the function returned: the winner returns
`nil` or `ErrShutdownTimeout`, every other call `nil`. -/
theorem shutdown_once {cfg : Config} {s : Pool} (h : Reachable cfg s) :
    (∀ k k' : Nat, s.shutdowns[k]? = some ShutdownPc.inDo → s.shutdowns[k']? = some ShutdownPc.inDo →
      k = k') ∧
    (∀ a s', s.step a = some s' →
      s.once.progress ≤ s'.once.progress ∧ (s.once ≠ .idle → s'.once.owner = s.once.owner)) ∧
    s.cancels ≤ 1 ∧
    (∀ (k : Nat) (r : Option PoolError), s.shutdowns[k]? = some (.returned r) →
      ∃ first, s.once = .done first ∧ s.closed = true ∧ s.jobsClosed = true ∧
        (k = first → r = none ∨ r = some .errShutdownTimeout) ∧ (k ≠ first → r = none)) := by
  have hi := h.inv
  refine ⟨fun k k' hk hk' => ?_, fun a s' hs => ⟨(Pool.step_frame hs).progress_mono,
    (Pool.step_frame hs).owner_stable⟩, by rw [hi.cancels]; split <;> omega, fun k r hk => ?_⟩
  · obtain ⟨d, hd⟩ := (hi.inDo k).mp hk
    obtain ⟨d', hd'⟩ := (hi.inDo k').mp hk'
    exact (OnceState.running.inj (hd.symm.trans hd')).1
  · obtain ⟨first, honce, hne⟩ := hi.returned k r hk
    obtain ⟨-, -, -, -, -, hclosed, hjobs⟩ := hi.done_of_returned hk
    refine ⟨first, honce, hclosed, hjobs, fun hkf => ?_, hne⟩
    subst hkf
    have hr := ShutdownPc.returned.inj (Option.some.inj ((hi.owner k honce).symm.trans hk))
    rw [← hr]
    split <;> simp

theorem shutdown_once_on_forcedRun :
    ∃ s first, Reachable oneSlot s ∧ s.shutdowns[1]? = some (.returned none) ∧
      s.once = .done first ∧ s.jobsClosed = true ∧ s.cancels ≤ 1 := by
  obtain ⟨s, hr, h1⟩ : ∃ s, Reachable oneSlot s ∧ s.shutdowns[1]? = some (.returned none) :=
    ⟨_, reachable_of_run oneSlot forcedRun rfl, by decide⟩
  obtain ⟨-, -, hc, h⟩ := shutdown_once hr
  obtain ⟨first, honce, -, hjc, -⟩ := h 1 none h1
  exact ⟨s, first, hr, h1, honce, hjc, hc⟩

/-- On `oneSlot`: the first call times out, cancels the workers and returns
`ErrShutdownTimeout`; a second call made after it returns `nil`. -/
theorem shutdown_repeat_returns_nil :
    ∃ s, Reachable oneSlot s ∧ s.shutdowns[0]? = some (.returned (some .errShutdownTimeout)) ∧
      s.shutdowns[1]? = some (.returned none) :=
  ⟨_, reachable_of_run oneSlot forcedRun rfl, by decide, by decide⟩

/-! ## Nothing outlives `Shutdown` -/

theorem Pool.step_of_allExited {s s' : Pool} {a : Action} (hall : s.AllExited)
    (hs : s.step a = some s') :
    s'.workers = s.workers ∧ s'.metrics.started = s.metrics.started ∧
      s'.metrics.succeeded = s.metrics.succeeded ∧ s'.metrics.failed = s.metrics.failed := by
  have hw : ∀ w : Nat, s.workers[w]? = none ∨ s.workers[w]? = some WorkerPc.exited := fun w => by
    cases hpc : s.workers[w]? with
    | none => exact .inl rfl
    | some pc => exact .inr (by rw [hall pc (List.getElem?_mem hpc)])
  refine (Pool.step_frame hs).others ?_ ?_ ?_
  · rintro w rfl
    rcases hw w with hpc | hpc <;> simp [Pool.step, Pool.runWorker, hpc] at hs
  · rintro w ok rfl
    rcases hw w with hpc | hpc <;> simp [Pool.step, Pool.finish, hpc] at hs
  · rintro i w rfl
    rcases hw w with hpc | hpc <;> simp [Pool.step, Pool.handOff, hpc] at hs

theorem Pool.run_of_allExited {s s' : Pool} {acts : List Action} (hall : s.AllExited)
    (hrun : s.run acts = some s') :
    s'.metrics.started = s.metrics.started ∧ s'.metrics.succeeded = s.metrics.succeeded ∧
      s'.metrics.failed = s.metrics.failed :=
  (Pool.run_preserves (fun t => t.AllExited ∧ t.metrics.started = s.metrics.started ∧
      t.metrics.succeeded = s.metrics.succeeded ∧ t.metrics.failed = s.metrics.failed)
    (fun ⟨hall, h₁, h₂, h₃⟩ ht => by
      obtain ⟨hw, h₁', h₂', h₃'⟩ := Pool.step_of_allExited hall ht
      exact ⟨fun pc hpc => hall pc (hw ▸ hpc), h₁'.trans h₁, h₂'.trans h₂, h₃'.trans h₃⟩)
    hrun ⟨hall, rfl, rfl, rfl⟩).2

/-- Once a call of `Shutdown` has returned, every worker has exited, `p.wg` is zero, and
`p.jobs` is closed and empty. -/
theorem Reachable.drained {cfg : Config} {s : Pool} (h : Reachable cfg s) {k : Nat}
    {r : Option PoolError} (hk : s.shutdowns[k]? = some (.returned r)) :
    s.AllExited ∧ s.wg = 0 ∧ s.jobsClosed = true ∧ s.jobs = [] := by
  obtain ⟨-, -, -, hwg, hall, -, hjc⟩ := h.inv.done_of_returned hk
  obtain ⟨pc, hpc⟩ : ∃ pc, pc ∈ s.workers :=
    List.exists_mem_of_length_pos (by rw [h.workers_length]; omega)
  exact ⟨hall, hwg, hjc, (h.inv.exited (hall pc hpc ▸ hpc)).2⟩

/-- When any call of `Shutdown` returns, all `max 1 cfg.Workers` workers have left their loop,
`p.wg` is zero, and `p.jobs` is closed and empty; and no later step changes `Started`,
`Succeeded` or `Failed`. -/
theorem shutdown_returns_after_workers {cfg : Config} {s : Pool} (h : Reachable cfg s) {k : Nat}
    {r : Option PoolError} (hk : s.shutdowns[k]? = some (.returned r)) :
    s.workers.length = (max 1 cfg.workers).toNat ∧ s.AllExited ∧ s.wg = 0 ∧
      s.jobsClosed = true ∧ s.jobs = [] ∧
      ∀ acts s', s.run acts = some s' → s'.metrics.started = s.metrics.started ∧
        s'.metrics.succeeded = s.metrics.succeeded ∧ s'.metrics.failed = s.metrics.failed := by
  obtain ⟨hall, hwg, hjc, hjobs⟩ := h.drained hk
  exact ⟨h.workers_length, hall, hwg, hjc, hjobs, fun _ _ hrun => Pool.run_of_allExited hall hrun⟩

theorem shutdown_returns_after_workers_on_cleanRun :
    ∃ s, Reachable oneSlot s ∧ s.shutdowns[0]? = some (.returned none) ∧ s.AllExited ∧
      s.jobs = [] := by
  obtain ⟨s, hr, h0⟩ : ∃ s, Reachable oneSlot s ∧ s.shutdowns[0]? = some (.returned none) :=
    ⟨_, reachable_of_run oneSlot cleanRun rfl, by decide⟩
  obtain ⟨-, hall, -, -, hjobs, -⟩ := shutdown_returns_after_workers hr h0
  exact ⟨s, hr, h0, hall, hjobs⟩

/-! ## Cancellation -/

/-- `p.workerCtx` is cancelled only by the call of `p.cancelWorkers()` in the function run by
`p.once.Do`, after its store and its close, reached only when the timer fired, and at most
once. The winner returns `ErrShutdownTimeout` exactly when it cancelled. When the winner
returns `nil`: no worker skipped a job, no job was invoked with a cancelled context, `Failed`
counts the invocations that returned an error, and once every `Submit` has returned,
`Started = Succeeded + Failed = Submitted - C`, with `C` the calls that returned their
context's error. -/
theorem cancel_only_on_timeout {cfg : Config} {s : Pool} (h : Reachable cfg s) :
    (∀ a s', s.step a = some s' → s.cancelled = false → s'.cancelled = true →
      a = .drain ∧ ∃ k, s.once = .running k .cancel ∧ s.closed = true ∧ s.jobsClosed = true) ∧
    (∀ a s' k, s.step a = some s' → s'.once = .running k .cancel → s.once ≠ .running k .cancel →
      a = .timer ∧ s.once = .running k .select) ∧
    s.cancels ≤ 1 ∧
    (∀ (k : Nat) (r : Option PoolError), s.once = .done k → s.shutdowns[k]? = some (.returned r) →
      (r = some .errShutdownTimeout ↔ s.cancels = 1)) ∧
    (∀ k : Nat, s.once = .done k → s.shutdowns[k]? = some (.returned none) →
      s.skipped = 0 ∧ s.lateStarts = 0 ∧ s.metrics.failed = s.runErrors ∧
      (s.SubmitsReturned →
        s.metrics.started = s.metrics.succeeded + s.metrics.failed ∧
        s.metrics.succeeded + s.metrics.failed =
          s.metrics.submitted - s.submits.countP SubmitPc.cancelled)) := by
  have hi := h.inv
  have howner : ∀ (k : Nat) (r : Option PoolError), s.once = .done k → s.shutdowns[k]? = some (.returned r) →
      r = if s.cancelled then some .errShutdownTimeout else none := fun k r honce hk => by
    simpa [hk] using hi.owner k honce
  refine ⟨fun a s' hs hf ht => ?_, fun a s' k hs => (Pool.step_frame hs).timer_step k,
    by rw [hi.cancels]; split <;> omega, fun k r honce hk => ?_, fun k honce hk => ?_⟩
  · obtain ⟨rfl, k, honce⟩ := (Pool.step_frame hs).cancel_step hf ht
    exact ⟨rfl, k, honce, hi.closedFlag.mpr (by simp [honce]),
      hi.jobsClosedFlag.mpr (by simp [honce])⟩
  · rw [howner k r honce hk, hi.cancels]
    cases s.cancelled <;> simp
  · have hc : s.cancelled = false := Bool.eq_false_iff.mpr fun hc => by
      simpa [hc] using howner k none honce hk
    obtain ⟨hsk, hls⟩ := hi.uncancelled hc
    have hf := hi.failed
    refine ⟨hsk, hls, by omega, fun hsub => ?_⟩
    obtain ⟨hall, -, -, hjobs⟩ := h.drained hk
    have hst := hi.started
    rw [countP_eq_zero_of_exited WorkerPc.running rfl hall] at hst
    have := (hi.settled hall hjobs hsub).1
    omega

/-- On `cleanRun` the call that won the once returned `nil`: no job was skipped, none started
with a cancelled context, and the counters balance. -/
theorem cancel_only_on_timeout_on_cleanRun :
    ∃ s, Reachable oneSlot s ∧ s.once = .done 0 ∧ s.shutdowns[0]? = some (.returned none) ∧
      s.SubmitsReturned ∧ s.skipped = 0 ∧ s.lateStarts = 0 ∧
      s.metrics.started = s.metrics.succeeded + s.metrics.failed ∧
      s.metrics.succeeded + s.metrics.failed =
        s.metrics.submitted - s.submits.countP SubmitPc.cancelled := by
  obtain ⟨s, hr, honce, h0, hsub⟩ : ∃ s, Reachable oneSlot s ∧ s.once = .done 0 ∧
      s.shutdowns[0]? = some (.returned none) ∧ s.SubmitsReturned :=
    ⟨_, reachable_of_run oneSlot cleanRun rfl, by decide, by decide, by decide⟩
  obtain ⟨hsk, hls, -, h⟩ := (cancel_only_on_timeout hr).2.2.2.2 0 honce h0
  exact ⟨s, hr, honce, h0, hsub, hsk, hls, h hsub⟩

end WorkerPool
