import Mathlib.Data.List.Nodup
import WorkerPool.Step

/-! # The invariant of every reachable state

`Pool.Inv` collects what holds in every state of every run (`Reachable.inv`):

* the channel is a FIFO: the jobs received, followed by those still buffered, are the jobs
  sent (`fifo`), and a job is sent exactly when its `Submit` call returned `nil`;
* each counter of `Metrics` equals the number of goroutines past the statement that adds to
  it (`submitted`, `dropped`, `taken`, `started`, `failed`), and `p.wg` counts the workers
  that have not exited;
* the flags `p.closed`, the closing of `p.jobs`, the waiter and `p.workerCtx` follow the
  place of the function run by `p.once.Do` (`closedFlag`, ..., `cancelRunning`);
* the caller running that function is the once's owner, and every call that has returned
  did so after the function returned, with `nil` unless it is the owner (`returned`).

Each step keeps the invariant; the proof is one lemma per goroutine (`Inv.submit`,
`Inv.runWorker`, ...), and for the steps of `Submit` that do not send, one frame lemma
(`Inv.moveSubmit`). -/

namespace WorkerPool

/-! ## Places of the goroutines -/

/-- The `Submit` calls past `atomic.AddInt64(&p.metrics.Submitted, 1)`. -/
@[simp] def SubmitPc.admitted : SubmitPc → Bool
  | .select | .withdraw _ | .panicked | .returned none
  | .returned (some (.submitCancelled _)) => true
  | _ => false

/-- The `Submit` calls past an `atomic.AddInt64(&p.metrics.Dropped, 1)`. -/
@[simp] def SubmitPc.dropped : SubmitPc → Bool
  | .returned (some .errPoolClosed) | .returned (some (.submitCancelled _)) => true
  | _ => false

/-- The `Submit` calls that returned `ErrPoolClosed`. -/
@[simp] def SubmitPc.rejected : SubmitPc → Bool
  | .returned (some .errPoolClosed) => true
  | _ => false

/-- The `Submit` calls that returned the error wrapping their context's. -/
@[simp] def SubmitPc.cancelled : SubmitPc → Bool
  | .returned (some (.submitCancelled _)) => true
  | _ => false

/-- The job a worker holds. -/
@[simp] def WorkerPc.job : WorkerPc → Option Nat
  | .check j | .skip j | .start j | .run j => some j
  | _ => none

/-- The workers that hold a job. -/
@[simp] def WorkerPc.holding (pc : WorkerPc) : Bool := pc.job.isSome

/-- The workers inside a job invocation. -/
@[simp] def WorkerPc.running : WorkerPc → Bool
  | .run _ => true
  | _ => false

/-- Every worker goroutine has left its loop and run `p.wg.Done()`. -/
def Pool.AllExited (s : Pool) : Prop := ∀ pc ∈ s.workers, pc = .exited

instance (s : Pool) : Decidable s.AllExited := inferInstanceAs (Decidable (∀ pc ∈ s.workers, _))

/-- How far the function passed to `p.once.Do` has got: the store of `p.closed`, the close of
`p.jobs` and the start of the waiter. -/
@[simp] def OnceState.progress : OnceState → Nat
  | .idle | .running _ .store => 0
  | .running _ .close => 1
  | .running _ .spawn => 2
  | _ => 3

/-! ## Lists of goroutines -/

section Lists
variable {α : Type} {l : List α} {i : Nat} {a : α}

theorem getElem?_set_of (h : l[i]? = some a) (b : α) (j : Nat) :
    (l.set i b)[j]? = if i = j then some b else l[j]? := by
  have hi : i < l.length := (List.getElem?_eq_some_iff.mp h).1
  simp [List.getElem?_set, hi]

theorem getElem?_concat (l : List α) (b : α) (j : Nat) :
    (l ++ [b])[j]? = if j = l.length then some b else l[j]? := by
  rcases Nat.lt_trichotomy j l.length with hj | rfl | hj
  · simp [List.getElem?_append_left hj, Nat.ne_of_lt hj]
  · simp
  · simp [List.getElem?_eq_none (Nat.le_of_lt hj), Nat.ne_of_gt hj,
      List.getElem?_eq_none (by simp; omega : (l ++ [b]).length ≤ j)]

/-- How a count changes when one goroutine moves from `a` to `b`. -/
theorem countP_set_of (h : l[i]? = some a) (p : α → Bool) (b : α) :
    (l.set i b).countP p + (if p a then 1 else 0) = l.countP p + (if p b then 1 else 0) := by
  obtain ⟨hi, rfl⟩ := List.getElem?_eq_some_iff.mp h
  have := List.boole_getElem_le_countP p l i hi
  rw [List.countP_set p l i _ hi]
  omega

theorem countP_set_of_eq (h : l[i]? = some a) (p : α → Bool) (b : α) (hp : p b = p a) :
    (l.set i b).countP p = l.countP p := by
  have := countP_set_of h p b
  rw [hp] at this
  omega

theorem lt_length_of_getElem? (h : l[i]? = some a) : i < l.length :=
  (List.getElem?_eq_some_iff.mp h).1

/-- What one goroutine of a list of goroutines sees after one of them moved. -/
theorem getElem?_set_cases (h : l[i]? = some a) {b x : α} {j : Nat} (hx : (l.set i b)[j]? = some x) :
    (i = j ∧ x = b) ∨ (i ≠ j ∧ l[j]? = some x) := by
  rw [getElem?_set_of h] at hx
  split_ifs at hx with hij
  · exact .inl ⟨hij, (Option.some.inj hx).symm⟩
  · exact .inr ⟨hij, hx⟩

end Lists

/-! ## The invariant -/

/-- What holds in every reachable state. -/
structure Pool.Inv (s : Pool) : Prop where
  fifo : s.received ++ s.jobs = s.sent
  bounded : s.jobs.length ≤ s.queueSize
  sent_iff : ∀ j : Nat, j ∈ s.sent ↔ s.submits[j]? = some (.returned none)
  sent_nodup : s.sent.Nodup
  sent_length : s.sent.length = s.submits.count (.returned none)
  submitted : s.metrics.submitted = s.submits.countP SubmitPc.admitted
  dropped : s.metrics.dropped = s.submits.countP SubmitPc.dropped
  wg : s.wg = s.workers.countP (· != .exited)
  exited : .exited ∈ s.workers → s.jobsClosed = true ∧ s.jobs = []
  held : ∀ (w : Nat) (pc : WorkerPc) (j : Nat), s.workers[w]? = some pc → pc.job = some j → j ∈ s.received
  taken : s.received.length =
    s.metrics.succeeded + s.metrics.failed + s.workers.countP WorkerPc.holding
  started : s.metrics.succeeded + s.metrics.failed + s.workers.countP WorkerPc.running =
    s.metrics.started + s.skipped
  failed : s.metrics.failed = s.runErrors + s.skipped
  skipCancelled : ∀ (w j : Nat), s.workers[w]? = some (WorkerPc.skip j) → s.cancelled = true
  uncancelled : s.cancelled = false → s.skipped = 0 ∧ s.lateStarts = 0
  inDo : ∀ k : Nat, s.shutdowns[k]? = some .inDo ↔ ∃ d, s.once = .running k d
  owner : ∀ k : Nat, s.once = .done k →
    s.shutdowns[k]? = some (.returned (if s.cancelled then some .errShutdownTimeout else none))
  returned : ∀ (k : Nat) (r : Option PoolError), s.shutdowns[k]? = some (.returned r) →
    ∃ k', s.once = .done k' ∧ (k ≠ k' → r = none)
  closedFlag : s.closed = true ↔ 1 ≤ s.once.progress
  jobsClosedFlag : s.jobsClosed = true ↔ 2 ≤ s.once.progress
  spawned : s.waiter ≠ .idle ↔ 3 ≤ s.once.progress
  waiterDone : s.waiter = .done → s.wg = 0
  onceDone : ∀ k : Nat, s.once = .done k → s.waiter = .done
  cancelIdle : s.once = .idle → s.cancelled = false
  cancelRunning : ∀ (k : Nat) (d : DrainPc), s.once = .running k d → (s.cancelled = true ↔ d = .await)
  cancels : s.cancels = if s.cancelled then 1 else 0

namespace Pool.Inv

theorem new {cfg : Config} {s : Pool} (h : Pool.new cfg = some s) : s.Inv := by
  simp only [Pool.new, Config.withDefaults] at h
  split at h
  · cases h
  · cases h
    constructor <;> simp [List.getElem?_replicate, List.countP_replicate]
    rintro w _ j h rfl
    simp

variable {s s' : Pool}

theorem not_mem_sent (h : s.Inv) (hpc : s.submits[i]? = some pc) (hne : pc ≠ .returned none) :
    i ∉ s.sent := by
  rw [h.sent_iff, hpc]
  simpa using hne

/-! ## The steps of `Submit` -/

/-- A step of call `i` of `Submit` that sends nothing: it moves from `pc` to `pc'`, and adds to
`Submitted` and `Dropped` what the move passes. -/
theorem moveSubmit (h : s.Inv) (hpc : s.submits[i]? = some pc) {pc' : SubmitPc} {a b : Nat}
    (hne : pc ≠ .returned none) (hne' : pc' ≠ .returned none)
    (ha : a + (if pc.admitted then 1 else 0) = s.metrics.submitted + (if pc'.admitted then 1 else 0))
    (hb : b + (if pc.dropped then 1 else 0) = s.metrics.dropped + (if pc'.dropped then 1 else 0)) :
    Inv { s with
      submits := s.submits.set i pc'
      metrics := { s.metrics with submitted := a, dropped := b } } := by
  refine { h with sent_iff := fun j => ?_, sent_length := ?_, submitted := ?_, dropped := ?_ }
  · rw [h.sent_iff, getElem?_set_of hpc]
    split_ifs with hij
    · subst hij
      simp [hpc, hne, hne']
    · rfl
  · dsimp only
    rw [h.sent_length, List.count_eq_countP, List.count_eq_countP,
      countP_set_of_eq hpc (· == SubmitPc.returned none) pc' (by simp [hne, hne'])]
  · have := countP_set_of hpc SubmitPc.admitted pc'
    have := h.submitted
    dsimp only
    omega
  · have := countP_set_of hpc SubmitPc.dropped pc'
    have := h.dropped
    dsimp only
    omega

/-- The `Submit` half of the invariant after call `i` sends its job. -/
theorem sent_concat (h : s.Inv) (hpc : s.submits[i]? = some .select) :
    (∀ j, j ∈ s.sent ++ [i] ↔ (s.submits.set i (.returned none))[j]? = some (.returned none)) ∧
    (s.sent ++ [i]).Nodup ∧
    (s.sent ++ [i]).length = (s.submits.set i (.returned none)).count (.returned none) ∧
    s.metrics.submitted = (s.submits.set i (.returned none)).countP SubmitPc.admitted ∧
    s.metrics.dropped = (s.submits.set i (.returned none)).countP SubmitPc.dropped := by
  have hi := h.not_mem_sent hpc (by simp)
  refine ⟨fun j => ?_, h.sent_nodup.append (List.nodup_singleton i) (List.disjoint_singleton.mpr hi),
    ?_, ?_, ?_⟩
  · rw [List.mem_append, h.sent_iff, getElem?_set_of hpc, List.mem_singleton]
    split_ifs with hij
    · simp [hij]
    · simp [Ne.symm hij]
  · have := countP_set_of hpc (· == SubmitPc.returned none) (.returned none)
    simp only [List.count_eq_countP, List.length_append, List.length_singleton, h.sent_length] at this ⊢
    simpa using this.symm
  · rw [h.submitted]
    exact (countP_set_of_eq hpc SubmitPc.admitted (.returned none) rfl).symm
  · rw [h.dropped]
    exact (countP_set_of_eq hpc SubmitPc.dropped (.returned none) rfl).symm

/-- The send of call `i` of `Submit` into the buffer of `p.jobs`. -/
theorem send (h : s.Inv) (hpc : s.submits[i]? = some .select) (hopen : s.jobsClosed = false)
    (hroom : s.jobs.length < s.queueSize) :
    Inv { s with
      submits := s.submits.set i (.returned none)
      jobs := s.jobs ++ [i]
      sent := s.sent ++ [i] } := by
  obtain ⟨hiff, hnodup, hlen, hsub, hdrop⟩ := h.sent_concat hpc
  refine { h with
    fifo := by simp [← h.fifo]
    bounded := by simp; omega
    sent_iff := hiff, sent_nodup := hnodup, sent_length := hlen, submitted := hsub, dropped := hdrop
    exited := fun hw => by simp [(h.exited hw).1] at hopen }

theorem submit (h : s.Inv) (hs : s.submit i = some s') : s'.Inv := by
  unfold Pool.submit at hs
  cases hpc : s.submits[i]? with
  | none => simp [hpc] at hs
  | some pc =>
    cases pc with
    | load =>
      simp only [hpc, Option.some.injEq] at hs
      subst hs
      split <;> exact h.moveSubmit hpc (by simp) (by simp) (by simp) (by simp)
    | reject | accept | withdraw =>
      simp only [hpc, Option.some.injEq] at hs
      subst hs
      exact h.moveSubmit hpc (by simp) (by simp) (by simp) (by simp)
    | select =>
      simp only [hpc] at hs
      split at hs
      · cases hs
        exact h.moveSubmit hpc (by simp) (by simp) (by simp) (by simp)
      · split at hs
        · cases hs
          exact h.send hpc (by simpa using ‹¬s.jobsClosed = true›) ‹_›
        · cases hs
    | returned | panicked => simp [hpc] at hs

theorem abandon (h : s.Inv) (hs : s.abandon i cause = some s') : s'.Inv := by
  unfold Pool.abandon at hs
  split at hs
  · cases hs
    exact h.moveSubmit ‹_› (by simp) (by simp) (by simp) (by simp)
  · cases hs

/-! ## The steps of the workers -/

/-- The part of the invariant about the workers' places, after worker `w` moves from `pc` to
`pc'` (neither of them `exited`), where every job held is in `R`. -/
theorem workers_set (h : s.Inv) (hpc : s.workers[w]? = some pc) (pc' : WorkerPc) (R : List Nat)
    (hex₀ : pc ≠ .exited) (hex : pc' ≠ .exited) (hR : ∀ j ∈ s.received, j ∈ R)
    (hjob : ∀ j, pc'.job = some j → j ∈ R) (hskip : ∀ j, pc' = .skip j → s.cancelled = true) :
    s.wg = (s.workers.set w pc').countP (· != .exited) ∧
    (.exited ∈ s.workers.set w pc' → s.jobsClosed = true ∧ s.jobs = []) ∧
    (∀ (w' : Nat) (x : WorkerPc) (j : Nat), (s.workers.set w pc')[w']? = some x → x.job = some j → j ∈ R) ∧
    (∀ (w' j : Nat), (s.workers.set w pc')[w']? = some (WorkerPc.skip j) → s.cancelled = true) := by
  refine ⟨?_, fun hx => h.exited ((List.mem_or_eq_of_mem_set hx).resolve_right (Ne.symm hex)),
    fun w' x j hx hj => ?_, fun w' j hx => ?_⟩
  · rw [h.wg, countP_set_of_eq hpc (· != WorkerPc.exited) pc'
      ((bne_iff_ne.mpr hex).trans (bne_iff_ne.mpr hex₀).symm)]
  · rcases getElem?_set_cases hpc hx with ⟨-, rfl⟩ | ⟨-, hx⟩
    · exact hjob j hj
    · exact hR j (h.held w' x j hx hj)
  · rcases getElem?_set_cases hpc hx with ⟨-, hx⟩ | ⟨-, hx⟩
    · exact hskip j hx.symm
    · exact h.skipCancelled w' j hx

/-- Worker `w`, at its receive, takes job `j`: the part of the invariant about the workers. -/
theorem recv_fields (h : s.Inv) (hpc : s.workers[w]? = some .recv) (j : Nat) :
    s.wg = (s.workers.set w (.check j)).countP (· != .exited) ∧
    (.exited ∈ s.workers.set w (.check j) → s.jobsClosed = true ∧ s.jobs = []) ∧
    (∀ (w' : Nat) (x : WorkerPc) (j' : Nat), (s.workers.set w (.check j))[w']? = some x → x.job = some j' →
      j' ∈ s.received ++ [j]) ∧
    (∀ (w' j' : Nat), (s.workers.set w (.check j))[w']? = some (WorkerPc.skip j') →
      s.cancelled = true) ∧
    (s.received ++ [j]).length =
      s.metrics.succeeded + s.metrics.failed + (s.workers.set w (.check j)).countP WorkerPc.holding ∧
    s.metrics.succeeded + s.metrics.failed + (s.workers.set w (.check j)).countP WorkerPc.running =
      s.metrics.started + s.skipped := by
  obtain ⟨hwg, hex, hheld, hskip⟩ := h.workers_set hpc (.check j) (s.received ++ [j]) (by simp)
    (by simp) (fun _ hj => by simp [hj]) (by simp) (by simp)
  refine ⟨hwg, hex, hheld, hskip, ?_, ?_⟩
  · have := countP_set_of hpc WorkerPc.holding (.check j)
    simp at this
    simp [h.taken]
    omega
  · rw [countP_set_of_eq hpc WorkerPc.running (.check j) rfl]
    exact h.started

theorem handOff (h : s.Inv) (hs : s.handOff i w = some s') : s'.Inv := by
  unfold Pool.handOff at hs
  split at hs
  · rename_i hc
    obtain ⟨hpc, hw, hopen, hjobs⟩ := hc
    cases hs
    obtain ⟨hiff, hnodup, hlen, hsub, hdrop⟩ := h.sent_concat hpc
    obtain ⟨hwg, -, hheld, hskip, htaken, hstarted⟩ := h.recv_fields hw i
    refine { h with
      fifo := by simp [← h.fifo, hjobs]
      sent_iff := hiff, sent_nodup := hnodup, sent_length := hlen, submitted := hsub
      dropped := hdrop, wg := hwg, held := hheld, skipCancelled := hskip, taken := htaken
      started := hstarted
      exited := fun hx => by
        have := (h.exited ((List.mem_or_eq_of_mem_set hx).resolve_right (by simp))).1
        simp [hopen] at this }
  · cases hs

/-- A held job is in `received`, whatever place of the worker holds it. -/
theorem held_job {w : Nat} {pc : WorkerPc} (h : s.Inv) (hpc : s.workers[w]? = some pc) {pc' : WorkerPc}
    (hjob : pc'.job = pc.job) : ∀ j, pc'.job = some j → j ∈ s.received :=
  fun j hj => h.held w pc j hpc (hjob ▸ hj)

/-- A worker moves to a place that holds the same job and counts alike in `taken` and
`started`. -/
theorem keepJob (h : s.Inv) (hpc : s.workers[w]? = some pc) (pc' : WorkerPc) (hex₀ : pc ≠ .exited)
    (hex : pc' ≠ .exited) (hjob : pc'.job = pc.job) (hrun : pc'.running = pc.running)
    (hskip : ∀ j, pc' = .skip j → s.cancelled = true) : Inv { s with workers := s.workers.set w pc' } := by
  obtain ⟨hwg, hex, hheld, hskip⟩ := h.workers_set hpc pc' s.received hex₀ hex (fun _ h => h)
    (h.held_job hpc hjob) hskip
  exact { h with
    wg := hwg, exited := hex, held := hheld, skipCancelled := hskip
    taken := by rw [countP_set_of_eq hpc WorkerPc.holding pc' (congrArg Option.isSome hjob)]; exact h.taken
    started := by rw [countP_set_of_eq hpc WorkerPc.running pc' hrun]; exact h.started }

theorem runWorker (h : s.Inv) (hs : s.runWorker w = some s') : s'.Inv := by
  unfold Pool.runWorker at hs
  cases hpc : s.workers[w]? with
  | none => simp [hpc] at hs
  | some pc =>
    cases pc with
    | recv =>
      simp only [hpc] at hs
      split at hs
      · rename_i j rest hjobs
        cases hs
        obtain ⟨hwg, -, hheld, hskip, htaken, hstarted⟩ := h.recv_fields hpc j
        refine { h with
          fifo := by rw [← h.fifo, hjobs]; simp
          bounded := by have := h.bounded; rw [hjobs] at this; simp at this; dsimp only; omega
          wg := hwg, held := hheld, skipCancelled := hskip, taken := htaken, started := hstarted
          exited := fun hx => by
            simpa [hjobs] using (h.exited ((List.mem_or_eq_of_mem_set hx).resolve_right (by simp))).2 }
      · split at hs
        · rename_i hjobs hclosed
          cases hs
          have hc := countP_set_of hpc (· != WorkerPc.exited) .exited
          simp at hc
          refine { h with
            wg := by rw [h.wg]; dsimp only; omega
            exited := fun _ => ⟨hclosed, hjobs⟩
            held := fun w' x j hx hj => ?_
            skipCancelled := fun w' j hx => ?_
            taken := by rw [countP_set_of_eq hpc WorkerPc.holding .exited rfl]; exact h.taken
            started := by rw [countP_set_of_eq hpc WorkerPc.running .exited rfl]; exact h.started
            waiterDone := fun hd => by have := h.waiterDone hd; dsimp only; omega }
          · rcases getElem?_set_cases hpc hx with ⟨-, rfl⟩ | ⟨-, hx⟩
            · simp at hj
            · exact h.held w' x j hx hj
          · rcases getElem?_set_cases hpc hx with ⟨-, hx⟩ | ⟨-, hx⟩
            · cases hx
            · exact h.skipCancelled w' j hx
        · cases hs
    | check j =>
      simp only [hpc, Option.some.injEq] at hs
      subst hs
      split
      · exact h.keepJob hpc (.skip j) (by simp) (by simp) rfl rfl (fun _ _ => ‹_›)
      · exact h.keepJob hpc (.start j) (by simp) (by simp) rfl rfl (by simp)
    | skip j =>
      simp only [hpc, Option.some.injEq] at hs
      subst hs
      have hcancelled := h.skipCancelled w j hpc
      obtain ⟨hwg, hex, hheld, hskip⟩ := h.workers_set hpc .recv s.received (by simp) (by simp)
        (fun _ h => h) (by simp) (by simp)
      have hhold := countP_set_of hpc WorkerPc.holding .recv
      simp at hhold
      refine { h with
        wg := hwg, exited := hex, held := hheld, skipCancelled := hskip
        taken := by have := h.taken; dsimp only; omega
        started := by
          rw [countP_set_of_eq hpc WorkerPc.running .recv rfl]
          have := h.started
          dsimp only
          omega
        failed := by have := h.failed; dsimp only; omega
        uncancelled := fun hf => by simp [hcancelled] at hf }
    | start j =>
      simp only [hpc, Option.some.injEq] at hs
      subst hs
      obtain ⟨hwg, hex, hheld, hskip⟩ := h.workers_set hpc (.run j) s.received (by simp) (by simp)
        (fun _ h => h) (h.held_job hpc rfl) (by simp)
      have hrun := countP_set_of hpc WorkerPc.running (.run j)
      simp at hrun
      refine { h with
        wg := hwg, exited := hex, held := hheld, skipCancelled := hskip
        taken := by rw [countP_set_of_eq hpc WorkerPc.holding (.run j) rfl]; exact h.taken
        started := by have := h.started; dsimp only; omega
        uncancelled := fun hf => by
          dsimp only at hf ⊢
          simp [hf, h.uncancelled hf] }
    | run | exited => simp [hpc] at hs

theorem finish (h : s.Inv) (hs : s.finish w ok = some s') : s'.Inv := by
  unfold Pool.finish at hs
  split at hs
  · rename_i j hpc
    obtain ⟨hwg, hex, hheld, hskip⟩ := h.workers_set hpc .recv s.received (by simp) (by simp)
      (fun _ h => h) (by simp) (by simp)
    have hhold := countP_set_of hpc WorkerPc.holding .recv
    have hrun := countP_set_of hpc WorkerPc.running .recv
    simp at hhold hrun
    have := h.taken
    have := h.started
    split at hs <;> cases hs
    · exact { h with
        wg := hwg, exited := hex, held := hheld, skipCancelled := hskip
        taken := by dsimp only; omega
        started := by dsimp only; omega }
    · exact { h with
        wg := hwg, exited := hex, held := hheld, skipCancelled := hskip
        taken := by dsimp only; omega
        started := by dsimp only; omega
        failed := by have := h.failed; dsimp only; omega }
  · cases hs

/-! ## New calls -/

theorem callSubmit (h : s.Inv) : Inv { s with submits := s.submits ++ [.load] } := by
  refine { h with
    sent_iff := fun j => ?_
    sent_length := by simp [h.sent_length]
    submitted := by simp [h.submitted]
    dropped := by simp [h.dropped] }
  rw [h.sent_iff, getElem?_concat]
  split_ifs with hj
  · subst hj
    simp
  · rfl

theorem callShutdown (h : s.Inv) : Inv { s with shutdowns := s.shutdowns ++ [.enter] } := by
  refine { h with
    inDo := fun k => ?_
    owner := fun k hk => ?_
    returned := fun k r hk => ?_ }
  · rw [getElem?_concat]
    split_ifs with hlen
    · subst hlen
      simp only [Option.some.injEq, reduceCtorEq, false_iff]
      rw [← h.inDo]
      simp
    · exact h.inDo k
  · have hlt := lt_length_of_getElem? (h.owner k hk)
    rw [getElem?_concat, if_neg (Nat.ne_of_lt hlt)]
    exact h.owner k hk
  · rw [getElem?_concat] at hk
    split_ifs at hk
    · simp at hk
    · exact h.returned k r hk

/-! ## The steps of `Shutdown` -/

theorem not_returned_of_running (h : s.Inv) (honce : s.once = .running k d) (k' : Nat)
    (r : Option PoolError) : s.shutdowns[k']? ≠ some (.returned r) := fun hk => by
  obtain ⟨_, hd, _⟩ := h.returned k' r hk
  simp [honce] at hd

theorem shutdown (h : s.Inv) (hs : s.shutdown k = some s') : s'.Inv := by
  unfold Pool.shutdown at hs
  split at hs
  · rename_i hk honce
    cases hs
    have hcancelled := h.cancelIdle honce
    refine { h with
      inDo := fun k' => ?_
      owner := fun k' hk' => by cases hk'
      returned := fun k' r hk' => ?_
      closedFlag := by simpa [honce] using h.closedFlag
      jobsClosedFlag := by simpa [honce] using h.jobsClosedFlag
      spawned := by simpa [honce] using h.spawned
      onceDone := fun k' hk' => by cases hk'
      cancelIdle := fun hk' => by cases hk'
      cancelRunning := fun k' d hk' => by cases hk'; simpa using hcancelled }
    · rw [getElem?_set_of hk]
      split_ifs with hkk
      · simp [hkk]
      · rw [h.inDo, honce]
        simp [hkk]
    · rcases getElem?_set_cases hk hk' with ⟨-, hr⟩ | ⟨-, hk'⟩
      · cases hr
      · obtain ⟨_, hd, _⟩ := h.returned k' r hk'
        simp [honce] at hd
  · rename_i owner hk honce
    cases hs
    have hne : k ≠ owner := by
      rintro rfl
      simpa [hk] using h.owner k honce
    refine { h with
      inDo := fun k' => ?_
      owner := fun k' hk' => ?_
      returned := fun k' r hk' => ?_ }
    · rw [getElem?_set_of hk]
      split_ifs with hkk
      · simp [honce]
      · exact h.inDo k'
    · rw [getElem?_set_of hk, if_neg (by rintro rfl; simp_all)]
      exact h.owner k' hk'
    · rcases getElem?_set_cases hk hk' with ⟨rfl, hr⟩ | ⟨-, hk'⟩
      · exact ⟨owner, honce, fun _ => by simpa using hr⟩
      · exact h.returned k' r hk'
  · cases hs

/-- A step of the function run by `p.once.Do` that leaves it running: it moves from `d` to `d'`
and sets the flags to `c`, `jc`, `wt` and `ca`, and the count of cancellations to `n`. -/
theorem moveDrain (h : s.Inv) (honce : s.once = .running k d) (d' : DrainPc) {c jc ca : Bool}
    {wt : WaiterPc} {n : Nat}
    (hc : c = true ↔ 1 ≤ (OnceState.running k d').progress)
    (hjc : jc = true ↔ 2 ≤ (OnceState.running k d').progress)
    (hwt : wt ≠ .idle ↔ 3 ≤ (OnceState.running k d').progress)
    (hwt' : wt = .done → s.wg = 0) (hca : ca = true ↔ d' = .await) (hn : n = if ca then 1 else 0)
    (hjcmono : s.jobsClosed = true → jc = true) (hcamono : s.cancelled = true → ca = true) :
    Inv { s with
      once := .running k d', closed := c, jobsClosed := jc, waiter := wt, cancelled := ca
      cancels := n } where
  __ := h
  exited hx := ⟨hjcmono (h.exited hx).1, (h.exited hx).2⟩
  skipCancelled w j hw := hcamono (h.skipCancelled w j hw)
  uncancelled hf := h.uncancelled (by cases hs : s.cancelled <;> simp_all)
  inDo k' := by rw [h.inDo, honce]; simp
  owner k' hk' := by cases hk'
  returned k' r hk' := absurd hk' (h.not_returned_of_running honce k' r)
  closedFlag := hc
  jobsClosedFlag := hjc
  spawned := hwt
  waiterDone := hwt'
  onceDone k' hk' := by cases hk'
  cancelIdle hk' := by cases hk'
  cancelRunning k' d'' hk' := by cases hk'; exact hca
  cancels := hn

/-- The function run by `p.once.Do` returns, after `<-done`, and its caller returns `r`. -/
theorem finishDrain (h : s.Inv) (honce : s.once = .running k d) (hd : d = .select ∨ d = .await)
    (hw : s.waiter = .done) {r : Option PoolError}
    (hr : r = if s.cancelled then some .errShutdownTimeout else none) :
    Inv { s with once := .done k, shutdowns := s.shutdowns.set k (.returned r) } := by
  have hk : s.shutdowns[k]? = some .inDo := (h.inDo k).mpr ⟨d, honce⟩
  have hp : (OnceState.running k d).progress = 3 := by rcases hd with rfl | rfl <;> rfl
  refine { h with
    inDo := fun k' => ?_
    owner := fun k' hk' => ?_
    returned := fun k' r' hk' => ?_
    closedFlag := by rw [h.closedFlag, honce, hp]; simp
    jobsClosedFlag := by rw [h.jobsClosedFlag, honce, hp]; simp
    spawned := by rw [h.spawned, honce, hp]; simp
    onceDone := fun _ _ => hw
    cancelIdle := fun hk' => by cases hk'
    cancelRunning := fun _ _ hk' => by cases hk' }
  · rw [getElem?_set_of hk]
    split_ifs with hkk
    · simp
    · rw [h.inDo, honce]
      simp [hkk]
  · cases hk'
    rw [getElem?_set_of hk, if_pos rfl, hr]
  · rcases getElem?_set_cases hk hk' with ⟨rfl, -⟩ | ⟨-, hk'⟩
    · exact ⟨k, rfl, fun hkk => absurd rfl hkk⟩
    · exact absurd hk' (h.not_returned_of_running honce k' r')

theorem drain (h : s.Inv) (hs : s.drain = some s') : s'.Inv := by
  unfold Pool.drain at hs
  split at hs
  · rename_i k honce
    cases hs
    exact h.moveDrain honce .close (by simp) (by simpa [honce] using h.jobsClosedFlag)
      (by simpa [honce] using h.spawned) h.waiterDone (by simpa using h.cancelRunning k _ honce)
      h.cancels id id
  · rename_i k honce
    cases hs
    exact h.moveDrain honce .spawn (by simpa [honce] using h.closedFlag) (by simp)
      (by simpa [honce] using h.spawned) h.waiterDone (by simpa using h.cancelRunning k _ honce)
      h.cancels (fun _ => rfl) id
  · rename_i k honce
    cases hs
    exact h.moveDrain honce .select (by simpa [honce] using h.closedFlag)
      (by simpa [honce] using h.jobsClosedFlag) (by simp) (by simp)
      (by simpa using h.cancelRunning k _ honce) h.cancels id id
  · rename_i k honce
    split at hs
    · cases hs
      exact h.finishDrain honce (.inl rfl) ‹_›
        (by simp [(h.cancelRunning k _ honce).not.mpr (by simp)])
    · cases hs
  · rename_i k honce
    cases hs
    have hcancelled : s.cancelled = false := by simpa using h.cancelRunning k _ honce
    exact h.moveDrain honce .await (by simpa [honce] using h.closedFlag)
      (by simpa [honce] using h.jobsClosedFlag) (by simpa [honce] using h.spawned) h.waiterDone
      (by simp) (by simp [h.cancels, hcancelled]) id (fun _ => rfl)
  · rename_i k honce
    split at hs
    · cases hs
      exact h.finishDrain honce (.inr rfl) ‹_›
        (by simp [(h.cancelRunning k _ honce).mpr rfl])
    · cases hs
  · cases hs

theorem timer (h : s.Inv) (hs : s.timer = some s') : s'.Inv := by
  unfold Pool.timer at hs
  split at hs
  · rename_i k honce
    cases hs
    exact h.moveDrain honce .cancel (by simpa [honce] using h.closedFlag)
      (by simpa [honce] using h.jobsClosedFlag) (by simpa [honce] using h.spawned) h.waiterDone
      (by simpa using h.cancelRunning k _ honce) h.cancels id id
  · cases hs

theorem waitStep (h : s.Inv) (hs : s.waitStep = some s') : s'.Inv := by
  unfold Pool.waitStep at hs
  split at hs
  · rename_i hc
    cases hs
    exact { h with
      spawned := by rw [← h.spawned, hc.1]; simp
      waiterDone := fun _ => hc.2
      onceDone := fun _ _ => rfl }
  · cases hs

theorem step (h : s.Inv) {a : Action} (hs : s.step a = some s') : s'.Inv := by
  cases a with
  | callSubmit => cases hs; exact h.callSubmit
  | callShutdown => cases hs; exact h.callShutdown
  | submit => exact h.submit hs
  | handOff => exact h.handOff hs
  | abandon => exact h.abandon hs
  | worker => exact h.runWorker hs
  | finish => exact h.finish hs
  | shutdown => exact h.shutdown hs
  | drain => exact h.drain hs
  | timer => exact h.timer hs
  | waiter => exact h.waitStep hs

end Pool.Inv

/-- The invariant holds in every state of every run. -/
theorem Reachable.inv {cfg : Config} {s : Pool} (h : Reachable cfg s) : s.Inv := by
  induction h with
  | new h => exact .new h
  | step _ _ hs ih => exact ih.step hs

end WorkerPool
