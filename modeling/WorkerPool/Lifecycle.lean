import WorkerPool.Shutdown

/-! # The lifecycle of the pool

The shutdown flow of the pool's design, as an abstract state machine: the pool accepts jobs;
`Shutdown` stores `p.closed` and the pool drains; if the timer fires first, `p.workerCtx` is
cancelled and the drain is forced; once every worker has reached `p.wg.Done()`, the pool has
stopped. `Pool.phase` reads the phase off a state of the model, and every step of the model is
a step of `Phase.Next` (`Reachable.phase_step`): the pool never goes back to an earlier phase
(`Reachable.phase_run`), it leaves `accepting` only by the store of `Shutdown`, and the drain is
forced only by `p.cancelWorkers()` (`lifecycle_refines`). -/

namespace WorkerPool

/-- The phases of the pool. -/
inductive Phase
  /-- `p.closed == 0`: `Submit` may still send. -/
  | accepting
  /-- `p.closed == 1`, and the workers drain `p.jobs`. -/
  | draining
  /-- `p.workerCtx` is cancelled, and some worker has not exited. -/
  | forced
  /-- Every worker has exited. -/
  | stopped
  deriving DecidableEq, Repr

/-- The moves the design allows: staying, and going forward along the shutdown flow. -/
inductive Phase.Next : Phase → Phase → Prop
  | stay (p : Phase) : Next p p
  | close : Next .accepting .draining
  | cancel : Next .draining .forced
  | drained : Next .draining .stopped
  | cancelled : Next .forced .stopped

/-- How far along the shutdown flow a phase is. -/
@[simp] def Phase.rank : Phase → Nat
  | .accepting => 0
  | .draining => 1
  | .forced => 2
  | .stopped => 3

theorem Phase.Next.rank_le {p q : Phase} (h : Next p q) : p.rank ≤ q.rank := by
  cases h <;> simp

/-- The phase of a state of the model. -/
def Pool.phase (s : Pool) : Phase :=
  if s.AllExited then .stopped
  else if s.cancelled then .forced
  else if s.closed then .draining
  else .accepting

namespace Pool.Inv

variable {s : Pool}

/-- Before the store of `p.closed`, the channel is open and the timer has not been armed. -/
theorem of_not_closed (h : s.Inv) (hc : s.closed = false) :
    s.jobsClosed = false ∧ s.cancelled = false := by
  have hcf := h.closedFlag
  have hjf := h.jobsClosedFlag
  cases honce : s.once with
  | idle => exact ⟨by simpa [honce] using hjf, h.cancelIdle honce⟩
  | running k d =>
    obtain rfl : d = .store := by rcases d with _ | _ | _ | _ | _ | _ <;> simp_all
    exact ⟨by simpa [honce] using hjf, by simpa using h.cancelRunning k .store honce⟩
  | done k => simp [honce, hc] at hcf

/-- With `p.jobs` open, no worker has exited. -/
theorem not_allExited {cfg : Config} (hr : Reachable cfg s) (hjc : s.jobsClosed = false) :
    ¬ s.AllExited := fun hall => by
  obtain ⟨pc, hpc⟩ : ∃ pc, pc ∈ s.workers :=
    List.exists_mem_of_length_pos (by rw [hr.workers_length]; omega)
  simp [(hr.inv.exited (hall pc hpc ▸ hpc)).1] at hjc

end Pool.Inv

/-- Every step of the model is a move of the lifecycle. The pool leaves `accepting` only by the
store of `p.closed` in the function run by `p.once.Do`, and the drain is forced only by its call
of `p.cancelWorkers()`. -/
theorem Reachable.phase_step {cfg : Config} {s s' : Pool} {a : Action} (h : Reachable cfg s)
    (hs : s.step a = some s') :
    Phase.Next s.phase s'.phase ∧
    (s.phase = .accepting → s'.phase ≠ .accepting → a = .drain ∧ ∃ k, s.once = .running k .store) ∧
    (s'.phase = .forced → s.phase ≠ .forced → a = .drain ∧ ∃ k, s.once = .running k .cancel) := by
  have hf := Pool.step_frame hs
  have h' := h.step a hs
  by_cases hall : s.AllExited
  · have hall' : s'.AllExited := fun pc hpc => hall pc ((Pool.step_of_allExited hall hs).1 ▸ hpc)
    simp only [Pool.phase, if_pos hall, if_pos hall']
    exact ⟨.stay _, by simp, by simp⟩
  cases hca : s.cancelled
  · cases hc : s.closed
    · -- accepting: only the store of `p.closed` moves, to `draining`
      obtain ⟨hjc, -⟩ := h.inv.of_not_closed hc
      cases hc' : s'.closed
      · obtain ⟨hjc', hca'⟩ := h'.inv.of_not_closed hc'
        simp only [Pool.phase, hall, Pool.Inv.not_allExited h' hjc', hca, hca', hc, hc', if_false]
        exact ⟨.stay _, by simp, by simp⟩
      · obtain ⟨ha, k, honce⟩ := hf.closed_step hc hc'
        obtain ⟨hjc', hca'⟩ := hf.store_keeps honce
        simp only [Pool.phase, hall, Pool.Inv.not_allExited h' (hjc'.trans hjc), hca, hca', hc, hc',
          if_false, if_true]
        exact ⟨.close, fun _ _ => ⟨ha, k, honce⟩, by simp⟩
    · -- draining
      have hc' := hf.closed_mono hc
      by_cases hall' : s'.AllExited
      · simp only [Pool.phase, hall, hall', hca, hc, if_false, if_true]
        exact ⟨.drained, by simp, by simp⟩
      cases hca' : s'.cancelled
      · simp only [Pool.phase, hall, hall', hca, hca', hc, hc', if_false, if_true]
        exact ⟨.stay _, by simp, by simp⟩
      · simp only [Pool.phase, hall, hall', hca, hca', hc, if_false, if_true]
        obtain ⟨ha, k, honce⟩ := hf.cancel_step hca hca'
        exact ⟨.cancel, by simp, fun _ _ => ⟨ha, k, honce⟩⟩
  · -- forced
    have hca' := hf.cancelled_mono hca
    by_cases hall' : s'.AllExited
    · simp only [Pool.phase, hall, hall', hca, if_false, if_true]
      exact ⟨.cancelled, by simp, by simp⟩
    · simp only [Pool.phase, hall, hall', hca, hca', if_false, if_true]
      exact ⟨.stay _, by simp, by simp⟩

/-- Along every run the phase only moves forward. -/
theorem Reachable.phase_run {cfg : Config} {s s' : Pool} (h : Reachable cfg s) {acts : List Action}
    (hrun : s.run acts = some s') : s.phase.rank ≤ s'.phase.rank :=
  (Pool.run_preserves (fun t => Reachable cfg t ∧ s.phase.rank ≤ t.phase.rank)
    (fun ⟨ht, hr⟩ hs => ⟨ht.step _ hs, hr.trans (ht.phase_step hs).1.rank_le⟩) hrun ⟨h, le_refl _⟩).2

/-- The model refines the lifecycle: from every reachable state, each step is a move of
`Phase.Next`, the pool leaves `accepting` only by the store of `p.closed` and enters `forced`
only by `p.cancelWorkers()`; and along every run the phase never goes back, so the pool never
accepts again once `Shutdown` has begun, nor un-cancels `p.workerCtx`. -/
theorem lifecycle_refines {cfg : Config} {s : Pool} (h : Reachable cfg s) :
    (∀ a s', s.step a = some s' →
      Phase.Next s.phase s'.phase ∧
      (s.phase = .accepting → s'.phase ≠ .accepting → a = .drain ∧ ∃ k, s.once = .running k .store) ∧
      (s'.phase = .forced → s.phase ≠ .forced → a = .drain ∧ ∃ k, s.once = .running k .cancel)) ∧
    (∀ acts s', s.run acts = some s' → s.phase.rank ≤ s'.phase.rank) :=
  ⟨fun _ _ hs => h.phase_step hs, fun _ _ hrun => h.phase_run hrun⟩

/-- On `oneSlot`, the store of `Shutdown` takes the pool from `accepting` to `draining`. -/
theorem lifecycle_refines_on_oneSlot :
    ∃ s s', Reachable oneSlot s ∧ s.step .drain = some s' ∧ Phase.Next s.phase s'.phase ∧
      s.phase = .accepting ∧ s'.phase = .draining := by
  obtain ⟨s, s', hr, hs, h₁, h₂⟩ : ∃ s s', Reachable oneSlot s ∧ s.step .drain = some s' ∧
      s.phase = .accepting ∧ s'.phase = .draining :=
    ⟨_, _, reachable_of_run oneSlot [.callShutdown, .shutdown 0] rfl, rfl, by decide, by decide⟩
  exact ⟨s, s', hr, hs, ((lifecycle_refines hr).1 _ _ hs).1, h₁, h₂⟩

end WorkerPool
