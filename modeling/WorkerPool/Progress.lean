import WorkerPool.Admission

/-! # The drain makes progress

After `close(p.jobs)` and before the function of `p.once.Do` returns, if no worker is inside a
job, then a worker, the waiter or the function itself can take a step, without the timer:
a receive on the closed channel never blocks, the waiter is enabled once `p.wg` is zero, and
`<-done` is enabled once the waiter has closed `done` (`drain_never_deadlocks`). Chained to the
end, these steps bring every call of `Shutdown` to return (`shutdown_can_complete`, in
`WorkerPool.Completion`), so `Shutdown` waits forever only while some job invocation never
returns. -/

namespace WorkerPool

namespace Pool.Inv

variable {s : Pool}

/-- With `p.jobs` closed, a worker that has not exited and is not inside a job can step. -/
theorem runWorker_isSome {w : Nat} {pc : WorkerPc} (hjc : s.jobsClosed = true)
    (hw : s.workers[w]? = some pc) (hex : pc ≠ .exited) (hrun : pc.running = false) :
    (s.runWorker w).isSome := by
  cases pc with
  | recv => cases hjobs : s.jobs <;> simp [Pool.runWorker, hw, hjobs, hjc]
  | check | skip | start => simp [Pool.runWorker, hw]
  | run j => cases hrun
  | exited => exact absurd rfl hex

/-- Some worker has not exited while `p.wg` is positive. -/
theorem exists_live_worker (h : s.Inv) (hwg : s.wg ≠ 0) :
    ∃ (w : Nat) (pc : WorkerPc), s.workers[w]? = some pc ∧ pc ≠ .exited := by
  rw [h.wg] at hwg
  obtain ⟨pc, hpc, hne⟩ := List.countP_pos_iff.mp (Nat.pos_of_ne_zero hwg)
  obtain ⟨w, hw⟩ := List.getElem?_of_mem hpc
  exact ⟨w, pc, hw, by simpa using hne⟩

end Pool.Inv

/-- After `close(p.jobs)` and before the function run by `p.once.Do` has returned, if no worker is
inside a job invocation, some worker, the waiter or the function itself can take a step. -/
theorem drain_never_deadlocks {cfg : Config} {s : Pool} (h : Reachable cfg s)
    (hjc : s.jobsClosed = true) {k : Nat} {d : DrainPc} (honce : s.once = .running k d)
    (hidle : ∀ pc ∈ s.workers, pc.running = false) :
    ∃ a s', s.step a = some s' ∧ (a = .drain ∨ a = .waiter ∨ ∃ w, a = .worker w) := by
  have hi := h.inv
  have hd : 2 ≤ (OnceState.running k d).progress := honce ▸ hi.jobsClosedFlag.mp hjc
  by_cases hw : s.waiter = .done ∨ d = .spawn ∨ d = .cancel
  · obtain ⟨s', hs'⟩ : ∃ s', s.step .drain = some s' := Option.isSome_iff_exists.mp <| by
      rcases hw with hw | rfl | rfl
      · rcases d with _ | _ | _ | _ | _ | _ <;> simp [Pool.step, Pool.drain, honce, hw] at hd ⊢
      all_goals simp [Pool.step, Pool.drain, honce]
    exact ⟨.drain, s', hs', .inl rfl⟩
  by_cases hwg : s.wg = 0
  · have h3 : 3 ≤ (OnceState.running k d).progress := by
      cases d <;> simp at hd ⊢
      exact hw (.inr (.inl rfl))
    have hwait : s.waiter = .wait := by
      cases hwt : s.waiter with
      | idle => exact absurd hwt (hi.spawned.mpr (honce ▸ h3))
      | wait => rfl
      | done => exact absurd (.inl hwt) hw
    obtain ⟨s', hs'⟩ := Option.isSome_iff_exists.mp
      (by simp [Pool.step, Pool.waitStep, hwait, hwg] : (s.step .waiter).isSome)
    exact ⟨.waiter, s', hs', .inr (.inl rfl)⟩
  · obtain ⟨w, pc, hpc, hex⟩ := hi.exists_live_worker hwg
    obtain ⟨s', hs'⟩ := Option.isSome_iff_exists.mp
      (Pool.Inv.runWorker_isSome hjc hpc hex (hidle pc (List.getElem?_mem hpc)))
    exact ⟨.worker w, s', hs', .inr (.inr ⟨w, rfl⟩)⟩

/-- On `oneSlot`, right after `close(p.jobs)`: the function of `p.once.Do` can go on. -/
theorem drain_never_deadlocks_on_oneSlot :
    ∃ s a s', Reachable oneSlot s ∧ s.jobsClosed = true ∧ s.step a = some s' ∧
      (a = .drain ∨ a = .waiter ∨ ∃ w, a = .worker w) := by
  obtain ⟨s, hr, hjc, honce, hidle⟩ : ∃ s, Reachable oneSlot s ∧ s.jobsClosed = true ∧
      s.once = .running 0 .spawn ∧ ∀ pc ∈ s.workers, pc.running = false :=
    ⟨_, reachable_of_run oneSlot [.callShutdown, .shutdown 0, .drain, .drain] rfl, by decide,
      by decide, by decide⟩
  obtain ⟨a, s', hs, ha⟩ := drain_never_deadlocks hr hjc honce hidle
  exact ⟨s, a, s', hr, hjc, hs, ha⟩

end WorkerPool
