import WorkerPool.Backpressure

/-! # Every goroutine of the pool can finish

The progress results so far each follow one goroutine: a call of `Shutdown`
(`shutdown_can_complete`), a call of `Submit` at its `select` (`submit_can_complete`), an
accepted job (`accepted_job_completes`). This module shows that they do not get in each other's
way. From every reachable state where `close(p.jobs)` has not yet run, the calls already made
and the workers bring every call of `Submit` to its return, with no panic. Then one more call
of `Shutdown`, followed by the pool's own goroutines alone, brings every call of `Shutdown` to
return `nil` and every worker to exit. At the end `Started = Succeeded + Failed`, and both
equal the number of calls that returned `nil` (`pool_winds_down`).

As with the other progress results, this says that such a schedule exists; it assumes no
fairness, and it uses neither the timer nor a cancellation of a caller's context.

* `Pool.Settles` is `Pool.Leads` widened to the steps of the calls already made.
* `Pool.submits_return` covers the calls of `Submit`, one at a time (`Pool.submit_returns`).
* `Pool.once_completes` and `Pool.shutdowns_return` cover the calls of `Shutdown`.
* `Pool.finished_counts` reads the counters of a pool whose workers have all exited. -/

namespace WorkerPool

/-- A step of a goroutine already running: of the pool's own goroutines, of a call of `Submit`
or `Shutdown` already made, or the return of a job. Not a new call, not the timer, and not the
cancellation of a caller's context. -/
@[simp] def Action.own : Action → Bool
  | .callSubmit | .callShutdown | .abandon _ _ | .timer => false
  | _ => true

theorem Action.own_of_internal {a : Action} (ha : a.internal) : a.own := by
  cases a <;> simp_all

namespace Pool

variable {s s' : Pool} {i : Nat} {P Q : Pool → Prop}

/-! ## Reaching a state by the steps of the goroutines already running -/

/-- From `s`, steps of the goroutines already running lead to a state where `P` holds. -/
def Settles (s : Pool) (P : Pool → Prop) : Prop :=
  ∃ acts : List Action, (∀ a ∈ acts, a.own) ∧ ∃ s', s.run acts = some s' ∧ P s'

theorem Settles.refl (hp : P s) : s.Settles P := ⟨[], by simp, s, rfl, hp⟩

theorem Settles.cons {a : Action} (ha : a.own) (hs : s.step a = some s') (h : s'.Settles P) :
    s.Settles P := by
  obtain ⟨acts, hacts, t, hrun, hp⟩ := h
  exact ⟨a :: acts, List.forall_mem_cons.mpr ⟨ha, hacts⟩, t, by simp [run_cons, hs, hrun], hp⟩

theorem Settles.mono (hs : s.Settles P) (hpq : ∀ t, P t → Q t) : s.Settles Q :=
  let ⟨acts, hacts, t, hrun, hp⟩ := hs
  ⟨acts, hacts, t, hrun, hpq t hp⟩

theorem Settles.trans {cfg : Config} (h : Reachable cfg s) (hs : s.Settles P)
    (hq : ∀ t, Reachable cfg t → P t → t.Settles Q) : s.Settles Q := by
  obtain ⟨acts₁, ha₁, t, hrun₁, hp⟩ := hs
  obtain ⟨acts₂, ha₂, u, hrun₂, hq'⟩ := hq t (h.run hrun₁) hp
  exact ⟨acts₁ ++ acts₂, List.forall_mem_append.mpr ⟨ha₁, ha₂⟩, u,
    by rw [run_append hrun₁, hrun₂], hq'⟩

theorem Leads.settles (h : s.Leads P) : s.Settles P :=
  let ⟨acts, hacts, t, hrun, hp⟩ := h
  ⟨acts, fun a ha => Action.own_of_internal (hacts a ha), t, hrun, hp⟩

/-- Internal steps leave the calls of `Submit` alone. -/
theorem run_internal_submits {acts : List Action} (hacts : ∀ a ∈ acts, a.internal)
    (hrun : s.run acts = some s') : s'.submits = s.submits := by
  induction acts generalizing s with
  | nil => cases hrun; rfl
  | cons a acts ih =>
    simp only [run_cons, Option.bind_eq_some] at hrun
    obtain ⟨t, ht, hrun⟩ := hrun
    rw [ih (fun b hb => hacts b (List.mem_cons_of_mem a hb)) hrun,
      submits_of_internal ht (hacts a (List.mem_cons_self a acts))]

/-! ## The calls of `Submit` -/

/-- Call `i` has returned, as the only call moved since `s₀`, and `p.jobs` is open. -/
def SubmitReturned (s₀ : Pool) (i : Nat) (t : Pool) : Prop :=
  (∃ r, t.submits = s₀.submits.set i (.returned r)) ∧ t.jobsClosed = false

/-- Call `i` goes on to its return after a step that moved it, and it alone. -/
theorem SubmitReturned.of_step {a : Action} (ha : a.own) (hs : s.step a = some s')
    {pc : SubmitPc} (hsub : s'.submits = s.submits.set i pc)
    (h' : s'.Settles (SubmitReturned s' i)) : s.Settles (SubmitReturned s i) :=
  .cons ha hs (h'.mono fun _ ⟨⟨r, ht⟩, hopen⟩ => ⟨⟨r, by rw [ht, hsub, List.set_set]⟩, hopen⟩)

/-- While `p.jobs` is open, a call at its `select` returns `nil`: the workers free a slot of the
buffer or come to wait at their receive, and the call sends. -/
theorem select_returns {cfg : Config} (h : Reachable cfg s) (hopen : s.jobsClosed = false)
    (hi : s.submits[i]? = some .select) : s.Settles (SubmitReturned s i) := by
  refine (workers_free_room h hopen).settles.trans h fun t _ ⟨hsub, hopen', hroom⟩ => ?_
  rw [← hsub] at hi
  rcases hroom with hroom | ⟨w, hw, hjobs⟩
  · exact .cons (by rfl) (send_of_room hi hopen' hroom) (.refl ⟨⟨none, by rw [hsub]⟩, hopen'⟩)
  · exact .cons (by rfl) (handOff_of_recv hi hw hopen' hjobs)
      (.refl ⟨⟨none, by rw [hsub]⟩, hopen'⟩)

/-- A call past its read of `p.closed == 0` adds to `Submitted`, then returns as at its
`select`. -/
theorem accept_returns {cfg : Config} (h : Reachable cfg s) (hopen : s.jobsClosed = false)
    (hi : s.submits[i]? = some .accept) : s.Settles (SubmitReturned s i) := by
  have hs : s.step (.submit i) = some { s with
      submits := s.submits.set i .select
      metrics := { s.metrics with submitted := s.metrics.submitted + 1 } } := by
    simp [step, submit, hi]
  exact SubmitReturned.of_step (by rfl) hs rfl
    (select_returns (h.step _ hs) hopen (by simp [lt_length_of_getElem? hi]))

/-- A call that has read `p.closed == 1` adds to `Dropped` and returns `ErrPoolClosed`. -/
theorem reject_returns (hopen : s.jobsClosed = false) (hi : s.submits[i]? = some .reject) :
    s.Settles (SubmitReturned s i) := by
  have hs : s.step (.submit i) = some { s with
      submits := s.submits.set i (.returned (some .errPoolClosed))
      metrics := { s.metrics with dropped := s.metrics.dropped + 1 } } := by
    simp [step, submit, hi]
  exact .cons (by rfl) hs (.refl ⟨⟨_, rfl⟩, hopen⟩)

/-- While `p.jobs` is open, every call of `Submit` that has not returned, nor panicked, gets to
its return, moving no other call. -/
theorem submit_returns {cfg : Config} (h : Reachable cfg s) (hopen : s.jobsClosed = false)
    {pc : SubmitPc} (hpc : s.submits[i]? = some pc) (hne : pc ≠ .panicked)
    (hret : pc.isReturned = false) : s.Settles (SubmitReturned s i) := by
  have hlt := lt_length_of_getElem? hpc
  cases pc with
  | load =>
    have hs : s.step (.submit i) = some { s with
        submits := s.submits.set i (if s.closed then .reject else .accept) } := by
      simp [step, submit, hpc]
    refine SubmitReturned.of_step (by rfl) hs rfl ?_
    by_cases hc : s.closed = true
    · exact reject_returns hopen (by simp [hc, hlt])
    · exact accept_returns (h.step _ hs) hopen (by simp [hc, hlt])
  | reject => exact reject_returns hopen hpc
  | withdraw cause =>
    have hs : s.step (.submit i) = some { s with
        submits := s.submits.set i (.returned (some (.submitCancelled cause)))
        metrics := { s.metrics with dropped := s.metrics.dropped + 1 } } := by
      simp [step, submit, hpc]
    exact .cons (by rfl) hs (.refl ⟨⟨_, rfl⟩, hopen⟩)
  | accept => exact accept_returns h hopen hpc
  | select => exact select_returns h hopen hpc
  | panicked => exact absurd rfl hne
  | returned => simp at hret

/-- While `p.jobs` is open, the calls already made and the workers bring every call of `Submit`
to its return, one call at a time, and `p.jobs` stays open. No call panics: none has, since the
channel is open. -/
theorem submits_return {cfg : Config} (h : Reachable cfg s) (hopen : s.jobsClosed = false) :
    s.Settles fun t => (∀ pc ∈ t.submits, pc.isReturned) ∧ t.jobsClosed = false := by
  obtain ⟨n, hn⟩ : ∃ n, s.submits.countP (fun pc => !pc.isReturned) = n := ⟨_, rfl⟩
  induction n using Nat.strong_induction_on generalizing s with
  | _ n ih =>
    by_cases hall : ∀ pc ∈ s.submits, pc.isReturned
    · exact .refl ⟨hall, hopen⟩
    obtain ⟨pc, hmem, hret⟩ : ∃ pc ∈ s.submits, pc.isReturned = false := by simpa using hall
    obtain ⟨i, hpc⟩ := List.getElem?_of_mem hmem
    have hne : pc ≠ .panicked := fun hp => by simp [h.panicClosed i (hp ▸ hpc)] at hopen
    refine (submit_returns h hopen hpc hne hret).trans h fun t ht ⟨⟨r, hsub⟩, hopen'⟩ =>
      ih _ ?_ ht hopen' rfl
    have hcount := countP_set_of hpc (fun pc => !pc.isReturned) (.returned r)
    have hr : (SubmitPc.returned r).isReturned = true := rfl
    simp only [hret, hr, Bool.not_false, Bool.not_true, Bool.false_eq_true, ↓reduceIte,
      Nat.add_zero] at hcount
    rw [hsub, ← hn]
    omega

/-! ## The calls of `Shutdown` -/

/-- Before `close(p.jobs)`, `p.workerCtx` is not cancelled and the function run by `p.once.Do`, if
begun, is at its store or at the close. -/
theorem Inv.before_close (hi : s.Inv) (hopen : s.jobsClosed = false) :
    s.cancelled = false ∧ ∀ k d, s.once = .running k d → d = .store ∨ d = .close := by
  have hprog : s.once.progress < 2 := by
    have := hi.jobsClosedFlag
    rw [hopen] at this
    simpa using this
  cases honce : s.once with
  | idle => exact ⟨hi.cancelIdle honce, by simp⟩
  | running k d =>
    rw [honce] at hprog
    have hd : d = .store ∨ d = .close := by cases d <;> simp_all
    refine ⟨?_, fun k' d' h' => by cases h'; exact hd⟩
    cases hc : s.cancelled
    · rfl
    · have := (hi.cancelRunning k d honce).mp hc
      rcases hd with rfl | rfl <;> cases this
  | done k => simp [honce] at hprog

/-- Before `close(p.jobs)`, once a call of `Shutdown` has been made, the pool's own goroutines
run the function of `p.once.Do` to its return, with `p.workerCtx` left uncancelled. -/
theorem once_completes {cfg : Config} (h : Reachable cfg s) (hopen : s.jobsClosed = false)
    {k : Nat} (hk : k < s.shutdowns.length) :
    s.Leads fun t => (∃ first, t.once = .done first) ∧ t.cancelled = false := by
  obtain ⟨hc, hd⟩ := h.inv.before_close hopen
  have hpc := List.getElem?_eq_getElem hk
  cases honce : s.once with
  | idle =>
    have hs : s.step (.shutdown k) =
        some { s with shutdowns := s.shutdowns.set k .inDo, once := .running k .store } := by
      simp [Pool.step, Pool.shutdown, hpc, h.inv.enter_of_idle honce hpc, honce]
    refine .cons (by rfl) hs ((finish_once (h.step _ hs) rfl).mono fun t ⟨hdone, _, hc'⟩ => ?_)
    exact ⟨⟨k, hdone⟩, (hc' (by simp)).trans hc⟩
  | running first d =>
    refine (finish_once h honce).mono fun t ⟨hdone, _, hc'⟩ => ⟨⟨first, hdone⟩, ?_⟩
    exact (hc' (by rcases hd first d honce with rfl | rfl <;> simp)).trans hc
  | done first => exact .refl ⟨⟨first, honce⟩, hc⟩

/-- Once the function run by `p.once.Do` has returned with `p.workerCtx` uncancelled, every call of
`Shutdown` returns `nil`: the one that ran it already has, and each other one returns at its
`p.once.Do`. -/
theorem shutdowns_return {cfg : Config} (h : Reachable cfg s) {first : Nat}
    (honce : s.once = .done first) (hc : s.cancelled = false) :
    s.Leads fun t => (∀ pc ∈ t.shutdowns, pc = .returned none) ∧ t.once = s.once := by
  obtain ⟨n, hn⟩ : ∃ n, s.shutdowns.count .enter = n := ⟨_, rfl⟩
  induction n using Nat.strong_induction_on generalizing s with
  | _ n ih =>
    by_cases hent : .enter ∈ s.shutdowns
    · obtain ⟨k, hk⟩ := List.getElem?_of_mem hent
      have hs : s.step (.shutdown k) =
          some { s with shutdowns := s.shutdowns.set k (.returned none) } := by
        simp [Pool.step, Pool.shutdown, hk, honce]
      refine .cons (by rfl) hs (ih _ ?_ (h.step _ hs) honce hc rfl)
      have hcount := countP_set_of hk (· == ShutdownPc.enter) (.returned none)
      rw [← hn, List.count]
      simp at hcount ⊢
      omega
    refine .refl ⟨fun pc hmem => ?_, rfl⟩
    obtain ⟨k, hk⟩ := List.getElem?_of_mem hmem
    cases pc with
    | enter => exact absurd hmem hent
    | inDo =>
      obtain ⟨d, hd⟩ := (h.inv.inDo k).mp hk
      simp [honce] at hd
    | returned r =>
      obtain ⟨k', hk', hne⟩ := h.inv.returned k r hk
      obtain rfl : first = k' := by rw [honce] at hk'; cases hk'; rfl
      by_cases hkk : k = first
      · subst hkk
        simpa [hc, hk] using h.inv.owner k honce
      · rw [hne hkk]

/-! ## The counters of a pool at rest -/

/-- Once every worker has exited, the buffer is empty and `p.workerCtx` was never cancelled,
every job a call of `Submit` handed over was started once and finished. -/
theorem finished_counts (hi : s.Inv) (hall : s.AllExited) (hjobs : s.jobs = [])
    (hc : s.cancelled = false) :
    s.metrics.started = s.metrics.succeeded + s.metrics.failed ∧
      s.metrics.started = s.submits.count (.returned none) := by
  have hrun := countP_eq_zero_of_exited WorkerPc.running rfl hall
  have hhold := countP_eq_zero_of_exited WorkerPc.holding rfl hall
  have hskip := (hi.uncancelled hc).1
  have hsent : s.received = s.sent := by simpa [hjobs] using hi.fifo
  have := hi.started
  have := hi.taken
  have := hi.sent_length
  rw [hsent] at *
  omega

end Pool

/-- From every reachable state where `close(p.jobs)` has not yet run, the pool can come to rest
with no panic and nothing lost. The calls already made and the workers first bring every call of
`Submit` to its return. Then one more call of `Shutdown` is made, and the pool's own goroutines
bring every call of `Shutdown` to return `nil` and every worker to exit, with the buffer empty.
At that point every job handed over has been started once and has finished:
`Started = Succeeded + Failed`, which is the number of calls that returned `nil`. The run uses no
timer, no cancellation of a caller's context and no other new call. -/
theorem pool_winds_down {cfg : Config} {s : Pool} (h : Reachable cfg s)
    (hopen : s.jobsClosed = false) :
    ∃ acts₁ acts₂ s', (∀ a ∈ acts₁, a.own) ∧ (∀ a ∈ acts₂, a.internal) ∧
      s.run (acts₁ ++ .callShutdown :: acts₂) = some s' ∧
      (∀ pc ∈ s'.submits, pc.isReturned) ∧ (∀ pc ∈ s'.shutdowns, pc = .returned none) ∧
      s'.AllExited ∧ s'.jobs = [] ∧
      s'.metrics.started = s'.metrics.succeeded + s'.metrics.failed ∧
      s'.metrics.started = s'.submits.count (.returned none) := by
  obtain ⟨acts₁, ha₁, t, hrun₁, hret, hopen'⟩ := Pool.submits_return h hopen
  obtain ⟨t₁, hs₁, hsd₁, hsub₁, hjc₁⟩ : ∃ t₁, t.step .callShutdown = some t₁ ∧
      t₁.shutdowns = t.shutdowns ++ [.enter] ∧ t₁.submits = t.submits ∧
      t₁.jobsClosed = t.jobsClosed := ⟨_, rfl, rfl, rfl, rfl⟩
  have ht := (h.run hrun₁).step _ hs₁
  have hl : t₁.Leads fun u =>
      ∃ first, (∀ pc ∈ u.shutdowns, pc = .returned none) ∧ u.once = .done first :=
    Pool.Leads.trans ht (Pool.once_completes ht (hjc₁.trans hopen')
      (show t.shutdowns.length < t₁.shutdowns.length by simp [hsd₁]))
      fun v hv ⟨⟨first, honce⟩, hc⟩ => (Pool.shutdowns_return hv honce hc).mono
        fun _ ⟨hnil, hw⟩ => ⟨first, hnil, hw.trans honce⟩
  obtain ⟨acts₂, ha₂, u, hrun₂, first, hnil, honce⟩ := hl
  have hu := ht.run hrun₂
  have hown := hu.inv.owner first honce
  have hc : u.cancelled = false := by
    have := hnil _ (List.getElem?_mem hown)
    cases hcu : u.cancelled <;> simp_all
  obtain ⟨hall, -, -, hjobs⟩ := hu.drained hown
  have hsub : u.submits = t.submits := (Pool.run_internal_submits ha₂ hrun₂).trans hsub₁
  refine ⟨acts₁, acts₂, u, ha₁, ha₂, ?_, fun pc hpc => hret pc (hsub ▸ hpc), hnil, hall, hjobs,
    Pool.finished_counts hu.inv hall hjobs hc⟩
  rw [Pool.run_append hrun₁, Pool.run_cons, hs₁]
  exact hrun₂

/-- On `oneSlot`, the worker is inside job `0`, job `1` is in the buffer, and call `2` waits in
its `select`. A call of `Shutdown` has stored `p.closed` and is about to close `p.jobs`, and
call `3` has read `p.closed == 1`. The pool still comes to rest. -/
theorem pool_winds_down_on_oneSlot :
    ∃ s, Reachable oneSlot s ∧ s.jobsClosed = false ∧ s.closed = true ∧
      s.submits[2]? = some .select ∧ s.submits[3]? = some .reject ∧
      ∃ acts₁ acts₂ s', s.run (acts₁ ++ .callShutdown :: acts₂) = some s' ∧
        (∀ pc ∈ s'.submits, pc.isReturned) ∧ (∀ pc ∈ s'.shutdowns, pc = .returned none) ∧
        s'.AllExited := by
  obtain ⟨s, hr, hjc, hc, h2, h3⟩ : ∃ s, Reachable oneSlot s ∧ s.jobsClosed = false ∧
      s.closed = true ∧ s.submits[2]? = some .select ∧ s.submits[3]? = some .reject :=
    ⟨_, reachable_of_run oneSlot [.callSubmit, .submit 0, .submit 0, .submit 0, .worker 0, .worker 0,
      .worker 0, .callSubmit, .submit 1, .submit 1, .submit 1, .callSubmit, .submit 2, .submit 2,
      .callShutdown, .shutdown 0, .drain, .callSubmit, .submit 3] rfl, by rfl, by rfl, by rfl, by rfl⟩
  obtain ⟨acts₁, acts₂, s', -, -, hrun, hsub, hsd, hall, -⟩ := pool_winds_down hr hjc
  exact ⟨s, hr, hjc, hc, h2, h3, acts₁, acts₂, s', hrun, hsub, hsd, hall⟩

end WorkerPool
