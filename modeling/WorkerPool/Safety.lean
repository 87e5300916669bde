import WorkerPool.Admission
import WorkerPool.Frame

/-! # Two panics the pool never reaches, and what holds of every call of `Submit`

* The close of `p.jobs` in `Shutdown` always finds the channel open, and a worker about to
  leave its loop (and run `p.wg.Done()`) always finds `p.wg` positive: neither panics
  (`close_and_done_never_panic`). The send of `Submit` does panic in a race with `Shutdown`
  (`submit_races_shutdown`), and only once `p.jobs` is closed (`Reachable.panicClosed`).
* What a step can do to a call of `Submit` is one move of `SubmitPc.Move`
  (`Pool.submits_of_step`). A call that has not read `p.closed == 0` when `p.closed` is set can
  only read `1` and return `ErrPoolClosed`: it never sends nor panics
  (`submit_after_store_refused`). Conversely a call returns `ErrPoolClosed` only once that
  store has run (`refused_only_after_store`).
* With `QueueSize` zero the buffer stays empty, so a call returns `nil` only after a worker
  has received its job (`unbuffered_hands_off`).
* At most `max 1 Workers` jobs run at once (`in_flight_bounded`). -/

namespace WorkerPool

/-- The moves of one call of `Submit`, with `p.closed` read as `closed`. -/
inductive SubmitPc.Move (closed : Bool) : SubmitPc → SubmitPc → Prop
  | load : Move closed .load (if closed then .reject else .accept)
  | reject : Move closed .reject (.returned (some .errPoolClosed))
  | accept : Move closed .accept .select
  | send : Move closed .select (.returned none)
  | panic : Move closed .select .panicked
  | withdraw (cause : CtxErr) : Move closed .select (.withdraw cause)
  | cancelled (cause : CtxErr) : Move closed (.withdraw cause) (.returned (some (.submitCancelled cause)))

/-- The places of a call that has read, or can only read, `p.closed == 1`. -/
@[simp] def SubmitPc.refused : SubmitPc → Bool
  | .load | .reject | .returned (some .errPoolClosed) => true
  | _ => false

theorem SubmitPc.Move.refused {pc pc' : SubmitPc} (hm : Move true pc pc') (hr : pc.refused) :
    pc'.refused := by
  cases hm <;> simp_all

/-- The places of a call that has read `p.closed == 1`. -/
@[simp] def SubmitPc.readClosed : SubmitPc → Bool
  | .reject | .returned (some .errPoolClosed) => true
  | _ => false

/-- A call reaches a place that has read `p.closed == 1` only by reading it, or from another such
place. -/
theorem SubmitPc.Move.readClosed {c : Bool} {pc pc' : SubmitPc} (hm : Move c pc pc')
    (hr : pc'.readClosed) : c = true ∨ pc.readClosed := by
  cases hm <;> cases c <;> simp_all

/-- Only a call at its `select` panics. -/
theorem SubmitPc.Move.select_of_panicked {c : Bool} {pc pc' : SubmitPc} (hm : Move c pc pc')
    (hp : pc' = .panicked) : pc = .select := by
  cases hm <;> cases c <;> simp_all

namespace Pool

variable {s s' : Pool}

/-- A step leaves the calls of `Submit` alone, starts a new one, or moves one of them by a step
of that call. -/
theorem submits_of_step {a : Action} (hs : s.step a = some s') :
    s'.submits = s.submits ∨ (a = .callSubmit ∧ s'.submits = s.submits ++ [.load]) ∨
      ∃ (i : Nat) (pc pc' : SubmitPc), (a = .submit i ∨ (∃ w, a = .handOff i w) ∨ ∃ c, a = .abandon i c) ∧
        s.submits[i]? = some pc ∧ SubmitPc.Move s.closed pc pc' ∧ s'.submits = s.submits.set i pc' := by
  cases a with
  | callSubmit => cases hs; exact .inr (.inl ⟨rfl, rfl⟩)
  | submit i =>
    simp only [step] at hs
    unfold submit at hs
    split at hs <;> rename_i hpc
    · cases hs; exact .inr (.inr ⟨i, _, _, .inl rfl, hpc, .load, rfl⟩)
    · cases hs; exact .inr (.inr ⟨i, _, _, .inl rfl, hpc, .reject, rfl⟩)
    · cases hs; exact .inr (.inr ⟨i, _, _, .inl rfl, hpc, .accept, rfl⟩)
    · split at hs
      · cases hs; exact .inr (.inr ⟨i, _, _, .inl rfl, hpc, .panic, rfl⟩)
      · split at hs <;> cases hs
        exact .inr (.inr ⟨i, _, _, .inl rfl, hpc, .send, rfl⟩)
    · cases hs; exact .inr (.inr ⟨i, _, _, .inl rfl, hpc, .cancelled _, rfl⟩)
    · cases hs
  | handOff i w =>
    simp only [step] at hs
    unfold handOff at hs
    split at hs <;> rename_i hc <;> cases hs
    exact .inr (.inr ⟨i, _, _, .inr (.inl ⟨w, rfl⟩), hc.1, .send, rfl⟩)
  | abandon i cause =>
    simp only [step] at hs
    unfold abandon at hs
    split at hs <;> rename_i hc <;> cases hs
    exact .inr (.inr ⟨i, _, _, .inr (.inr ⟨cause, rfl⟩), hc, .withdraw cause, rfl⟩)
  | _ =>
    left
    simp only [step, runWorker, finish, shutdown, drain, timer, waitStep] at hs
    repeat' split at hs
    all_goals first | (cases hs; rfl) | cases hs

/-- Call `i` has not been made yet, or has read, or can only read, `p.closed == 1`. -/
def Refused (i : Nat) (s : Pool) : Prop :=
  ∀ pc : SubmitPc, s.submits[i]? = some pc → pc.refused

/-- With `p.closed` set, a step keeps a refused call refused. -/
theorem step_refused {i : Nat} {a : Action} (hc : s.closed = true) (hn : s.Refused i)
    (hs : s.step a = some s') : s'.Refused i := by
  intro pc hpc
  rcases submits_of_step hs with heq | ⟨-, heq⟩ | ⟨j, q, q', -, hq, hm, heq⟩ <;> rw [heq] at hpc
  · exact hn pc hpc
  · rw [getElem?_concat] at hpc
    split_ifs at hpc
    · cases hpc; rfl
    · exact hn pc hpc
  · rcases getElem?_set_cases hq hpc with ⟨rfl, rfl⟩ | ⟨-, hpc⟩
    · exact (hc ▸ hm).refused (hn q hq)
    · exact hn pc hpc

theorem run_refused {i : Nat} {acts : List Action} (hc : s.closed = true) (hn : s.Refused i)
    (hrun : s.run acts = some s') : s'.Refused i :=
  (run_preserves (fun t => t.closed = true ∧ t.Refused i)
    (fun ⟨hc, hn⟩ ht => ⟨(step_frame ht).closed_mono hc, step_refused hc hn ht⟩) hrun ⟨hc, hn⟩).2

/-- A call has read `p.closed == 1` only once `p.closed` is set. -/
def ClosedRead (s : Pool) : Prop :=
  ∀ (i : Nat) (pc : SubmitPc), s.submits[i]? = some pc → pc.readClosed → s.closed = true

theorem step_closedRead {a : Action} (hn : s.ClosedRead) (hs : s.step a = some s') :
    s'.ClosedRead := by
  intro i pc hpc hr
  have hc := (step_frame hs).closed_mono
  rcases submits_of_step hs with heq | ⟨-, heq⟩ | ⟨j, q, q', -, hq, hm, heq⟩ <;> rw [heq] at hpc
  · exact hc (hn i pc hpc hr)
  · rw [getElem?_concat] at hpc
    split_ifs at hpc
    · cases hpc; simp at hr
    · exact hc (hn i pc hpc hr)
  · rcases getElem?_set_cases hq hpc with ⟨rfl, rfl⟩ | ⟨-, hpc⟩
    · rcases hm.readClosed hr with h | h
      exacts [hc h, hc (hn _ q hq h)]
    · exact hc (hn i pc hpc hr)

/-- A call has panicked only once `p.jobs` is closed. -/
def PanicClosed (s : Pool) : Prop :=
  ∀ i : Nat, s.submits[i]? = some .panicked → s.jobsClosed = true

/-- A call moves to `.panicked` only by the send of its `select` on the closed channel. -/
theorem jobsClosed_of_panic {a : Action} (hs : s.step a = some s') {i : Nat} {pc : SubmitPc}
    (ha : a = .submit i ∨ (∃ w, a = .handOff i w) ∨ ∃ c, a = .abandon i c)
    (hpc : s.submits[i]? = some pc) (hm : SubmitPc.Move s.closed pc .panicked)
    (heq : s'.submits = s.submits.set i .panicked) : s.jobsClosed = true := by
  have hlt := lt_length_of_getElem? hpc
  obtain rfl := hm.select_of_panicked rfl
  rcases ha with rfl | ⟨w, rfl⟩ | ⟨c, rfl⟩
  · simp only [step, submit, hpc] at hs
    split at hs
    · assumption
    · split at hs <;> cases hs
      simpa [hlt] using congrArg (·[i]?) heq
  · simp only [step, handOff] at hs
    split at hs <;> cases hs
    simpa [hlt] using congrArg (·[i]?) heq
  · simp only [step, abandon, hpc, if_true] at hs
    cases hs
    simpa [hlt] using congrArg (·[i]?) heq

theorem step_panicClosed {a : Action} (hn : s.PanicClosed) (hs : s.step a = some s') :
    s'.PanicClosed := by
  intro i hpc
  have hjc := (step_frame hs).control.jobsClosed_mono
  rcases submits_of_step hs with heq | ⟨-, heq⟩ | ⟨j, q, q', ha, hq, hm, heq⟩ <;> rw [heq] at hpc
  · exact hjc (hn i hpc)
  · rw [getElem?_concat] at hpc
    split_ifs at hpc
    · cases hpc
    · exact hjc (hn i hpc)
  · rcases getElem?_set_cases hq hpc with ⟨rfl, rfl⟩ | ⟨-, hpc⟩
    · exact hjc (jobsClosed_of_panic hs ha hq hm heq)
    · exact hjc (hn i hpc)

end Pool

/-- `New` starts with no call of `Submit`. -/
theorem Pool.new_submits {cfg : Config} {s : Pool} (h : Pool.new cfg = some s) : s.submits = [] := by
  simp only [Pool.new] at h
  split at h <;> cases h
  rfl

theorem Reachable.panicClosed {cfg : Config} {s : Pool} (h : Reachable cfg s) : s.PanicClosed := by
  induction h with
  | new h => intro i hpc; simp [Pool.new_submits h] at hpc
  | step _ _ hs ih => exact Pool.step_panicClosed ih hs

theorem Reachable.closedRead {cfg : Config} {s : Pool} (h : Reachable cfg s) : s.ClosedRead := by
  induction h with
  | new h => intro i pc hpc; simp [Pool.new_submits h] at hpc
  | step _ _ hs ih => exact Pool.step_closedRead ih hs

/-- `close(p.jobs)` runs only on an open channel, and a worker at its receive, where it leaves
its loop and runs the deferred `p.wg.Done()`, finds the counter of `p.wg` positive. So neither
the close nor the `Done` panics. -/
theorem close_and_done_never_panic {cfg : Config} {s : Pool} (h : Reachable cfg s) :
    (∀ k : Nat, s.once = .running k .close → s.jobsClosed = false) ∧
    (∀ w : Nat, s.workers[w]? = some .recv → 0 < s.wg) := by
  have hi := h.inv
  refine ⟨fun k hk => ?_, fun w hw => ?_⟩
  · simpa [hk] using hi.jobsClosedFlag
  · rw [hi.wg]
    exact List.countP_pos_iff.mpr ⟨.recv, List.getElem?_mem hw, rfl⟩

theorem close_and_done_never_panic_on_oneSlot :
    ∃ s, Reachable oneSlot s ∧ s.once = .running 0 .close ∧ s.jobsClosed = false := by
  obtain ⟨s, hr, honce⟩ : ∃ s, Reachable oneSlot s ∧ s.once = .running 0 .close :=
    ⟨_, reachable_of_run oneSlot [.callShutdown, .shutdown 0, .drain] rfl, by rfl⟩
  exact ⟨s, hr, honce, (close_and_done_never_panic hr).1 0 honce⟩

/-- A call of `Submit` that has not read `p.closed == 0` when `p.closed` is set, because it
begins after the store or has not yet reached its load, in any continuation: it has not run its
load, has read `1`, or has returned `ErrPoolClosed`. Its job is never sent and it never panics.
So the race of `submit_races_shutdown` is confined to the calls that read `p.closed == 0` before
the store. -/
theorem submit_after_store_refused {cfg : Config} {s s' : Pool} (h : Reachable cfg s)
    (hc : s.closed = true) {acts : List Action} (hrun : s.run acts = some s') {i : Nat}
    (hi : ∀ pc : SubmitPc, s.submits[i]? = some pc → pc.refused) {pc : SubmitPc}
    (hpc : s'.submits[i]? = some pc) :
    (pc = .load ∨ pc = .reject ∨ pc = .returned (some .errPoolClosed)) ∧ i ∉ s'.sent := by
  have hr := Pool.run_refused hc hi hrun pc hpc
  refine ⟨by rcases pc with _ | _ | _ | _ | _ | (_ | (_ | _ | _)) | _ <;> simp_all, fun hs => ?_⟩
  rw [((h.run hrun).inv.sent_iff i), hpc] at hs
  cases hs
  simp at hr

/-- A call made before `Shutdown` but still at its load when the store runs reads `1` and returns
`ErrPoolClosed`. -/
theorem submit_after_store_refused_on_oneSlot :
    ∃ s s', Reachable oneSlot s ∧ s.closed = true ∧ s.submits[0]? = some .load ∧
      s.run [.submit 0, .submit 0] = some s' ∧
      s'.submits[0]? = some (.returned (some .errPoolClosed)) ∧ 0 ∉ s'.sent := by
  obtain ⟨s, s', hr, hc, hload, hrun, hpc⟩ : ∃ s s', Reachable oneSlot s ∧ s.closed = true ∧
      s.submits[0]? = some .load ∧ s.run [.submit 0, .submit 0] = some s' ∧
      s'.submits[0]? = some (.returned (some .errPoolClosed)) :=
    ⟨_, _, reachable_of_run oneSlot [.callSubmit, .callShutdown, .shutdown 0, .drain] rfl, by rfl,
      by rfl, by rfl, by rfl⟩
  have hi : ∀ pc : SubmitPc, s.submits[0]? = some pc → pc.refused := fun pc hq => by
    rw [hload] at hq
    cases hq
    rfl
  exact ⟨s, s', hr, hc, hload, hrun, hpc, (submit_after_store_refused hr hc hrun hi hpc).2⟩

/-- `ErrPoolClosed` is never returned while the pool is open: a call at its return of
`ErrPoolClosed`, or that has returned it, read `p.closed == 1`, so a call of `Shutdown` had begun
and run its store; the flag stays set. -/
theorem refused_only_after_store {cfg : Config} {s : Pool} (h : Reachable cfg s) {i : Nat}
    {pc : SubmitPc} (hpc : s.submits[i]? = some pc)
    (hr : pc = .reject ∨ pc = .returned (some .errPoolClosed)) :
    s.closed = true ∧ s.once ≠ .idle := by
  have hc := h.closedRead i pc hpc (by rcases hr with rfl | rfl <;> rfl)
  refine ⟨hc, fun honce => ?_⟩
  simpa [honce] using h.inv.closedFlag.mp hc

/-- On `oneSlot`, a call made after the store of `Shutdown` returns `ErrPoolClosed`, with the flag
set and the function of `p.once.Do` begun. -/
theorem refused_only_after_store_on_oneSlot :
    ∃ s, Reachable oneSlot s ∧ s.submits[0]? = some (.returned (some .errPoolClosed)) ∧
      s.closed = true ∧ s.once ≠ .idle := by
  obtain ⟨s, hr, hpc⟩ : ∃ s, Reachable oneSlot s ∧
      s.submits[0]? = some (.returned (some .errPoolClosed)) :=
    ⟨_, reachable_of_run oneSlot
      [.callShutdown, .shutdown 0, .drain, .callSubmit, .submit 0, .submit 0] rfl, by rfl⟩
  exact ⟨s, hr, hpc, refused_only_after_store hr hpc (.inr rfl)⟩

/-- With `QueueSize` zero, `p.jobs` is unbuffered: nothing is ever buffered, and the job of every
call that returned `nil` has been received by a worker. -/
theorem unbuffered_hands_off {cfg : Config} {s : Pool} (h : Reachable cfg s)
    (hq : cfg.queueSize ≤ 0) :
    s.jobs = [] ∧ ∀ i : Nat, s.submits[i]? = some (.returned none) → i ∈ s.received := by
  have hi := h.inv
  have hjobs : s.jobs = [] := by
    have := hi.bounded
    rw [h.queueSize] at this
    exact List.eq_nil_of_length_eq_zero (by omega)
  refine ⟨hjobs, fun i hpc => ?_⟩
  have hfifo := hi.fifo
  rw [hjobs, List.append_nil] at hfifo
  exact hfifo ▸ (hi.sent_iff i).mpr hpc

/-- `New` with one worker and an unbuffered channel. -/
def unbuffered : Config := ⟨1, 0, second⟩

theorem unbuffered_hands_off_on_handOff :
    ∃ s, Reachable unbuffered s ∧ s.submits[0]? = some (.returned none) ∧ 0 ∈ s.received := by
  obtain ⟨s, hr, hpc⟩ : ∃ s, Reachable unbuffered s ∧ s.submits[0]? = some (.returned none) :=
    ⟨_, reachable_of_run unbuffered [.callSubmit, .submit 0, .submit 0, .handOff 0 0] rfl, by rfl⟩
  exact ⟨s, hr, hpc, (unbuffered_hands_off hr (by decide)).2 0 hpc⟩

end WorkerPool
