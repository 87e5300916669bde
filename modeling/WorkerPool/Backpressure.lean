import WorkerPool.Completion
import WorkerPool.Safety
import WorkerPool.Delivery

/-! # Backpressure of `Submit`

A call of `Submit` that has read `p.closed == 0` sends in its `select` when the buffer of
`p.jobs` has room (`Pool.send_of_room`), or hands its job to a worker waiting at its receive on
the empty channel (`Pool.handOff_of_recv`); with `QueueSize` zero only the hand-off is left.

The wait needs no help from the caller: while the channel is open, the workers, taking jobs and
returning from them, free a slot of the buffer or come to wait at their receive, each of their
steps lowering `Pool.pending` (`Pool.workers_free_room`), and the call then sends
(`submit_can_complete`). So a call waits forever only while some job invocation never returns,
or while the scheduler starves a goroutine.

Closing the channel does not end the wait with an error: a call still in its `select` when
`close(p.jobs)` runs can then only panic or take its context's branch
(`waiting_submit_panics_on_close`). -/

namespace WorkerPool

/-- A call past the add to `Submitted` stays past it. -/
theorem SubmitPc.Move.admitted {c : Bool} {pc pc' : SubmitPc} (hm : Move c pc pc') (hw : pc.admitted) :
    pc'.admitted := by
  cases hm <;> simp_all

namespace Pool

variable {s s' : Pool} {i w : Nat}

/-- The send of a call at its `select` into a buffer with room. -/
theorem send_of_room (hi : s.submits[i]? = some .select) (hopen : s.jobsClosed = false)
    (hroom : s.jobs.length < s.queueSize) :
    s.step (.submit i) = some { s with
      submits := s.submits.set i (.returned none), jobs := s.jobs ++ [i], sent := s.sent ++ [i] } := by
  simp [step, submit, hi, hopen, hroom]

/-- The send of a call at its `select` to a worker waiting at its receive on the empty open
channel. -/
theorem handOff_of_recv (hi : s.submits[i]? = some .select) (hw : s.workers[w]? = some .recv)
    (hopen : s.jobsClosed = false) (hjobs : s.jobs = []) :
    s.step (.handOff i w) = some { s with
      submits := s.submits.set i (.returned none), workers := s.workers.set w (.check i)
      sent := s.sent ++ [i], received := s.received ++ [i] } := by
  simp [step, handOff, hi, hw, hopen, hjobs]

/-- The pool's own steps leave the calls of `Submit` alone. -/
theorem submits_of_internal {a : Action} (hs : s.step a = some s') (ha : a.internal) :
    s'.submits = s.submits := by
  rcases submits_of_step hs with heq | ⟨rfl, -⟩ | ⟨_, _, _, hi, -⟩
  · exact heq
  · simp at ha
  · rcases hi with rfl | ⟨_, rfl⟩ | ⟨_, rfl⟩ <;> simp at ha

/-- On the open channel, a worker can step, or its job can return, unless it waits at its
receive on the empty buffer. The step lowers `pending`, is quiet, and leaves the calls of
`Submit` alone. -/
theorem exists_worker_step_open (h : s.Inv) (hopen : s.jobsClosed = false) {pc : WorkerPc}
    (hw : s.workers[w]? = some pc) (hne : pc ≠ .recv ∨ s.jobs ≠ []) :
    ∃ a s', a.internal ∧ s.step a = some s' ∧ s'.pending < s.pending ∧ s.Quiet s' ∧
      s'.submits = s.submits := by
  have hworker : (s.runWorker w).isSome → ∃ a s', a.internal ∧ s.step a = some s' ∧
      s'.pending < s.pending ∧ s.Quiet s' ∧ s'.submits = s.submits := fun hsome => by
    obtain ⟨s', hs⟩ : ∃ s', s.step (.worker w) = some s' := Option.isSome_iff_exists.mp hsome
    obtain ⟨hlt, hq⟩ := runWorker_pending hs
    exact ⟨.worker w, s', rfl, hs, hlt, hq, submits_of_internal hs rfl⟩
  cases pc with
  | recv =>
    obtain ⟨j, rest, hjobs⟩ := List.exists_cons_of_ne_nil (hne.resolve_left (absurd rfl))
    exact hworker (by simp [runWorker, hw, hjobs])
  | check | skip | start => exact hworker (by simp [runWorker, hw])
  | run j =>
    obtain ⟨s', hs⟩ : ∃ s', s.step (.finish w true) = some s' :=
      Option.isSome_iff_exists.mp (by simp [step, finish, hw])
    obtain ⟨hlt, hq⟩ := finish_pending hs
    exact ⟨.finish w true, s', rfl, hs, hlt, hq, submits_of_internal hs rfl⟩
  | exited => simp [(h.exited (List.getElem?_mem hw)).1] at hopen

/-- While `p.jobs` is open, the workers alone free a slot of the buffer, or come to wait at
their receive on the empty buffer, and leave the calls of `Submit` where they were. -/
theorem workers_free_room {cfg : Config} (h : Reachable cfg s) (hopen : s.jobsClosed = false) :
    s.Leads fun t => t.submits = s.submits ∧ t.jobsClosed = false ∧
      (t.jobs.length < t.queueSize ∨ ∃ w : Nat, t.workers[w]? = some .recv ∧ t.jobs = []) := by
  obtain ⟨n, hn⟩ : ∃ n, s.pending = n := ⟨_, rfl⟩
  induction n using Nat.strong_induction_on generalizing s with
  | _ n ih =>
    by_cases hdone : s.jobs.length < s.queueSize ∨ ∃ w : Nat, s.workers[w]? = some .recv ∧ s.jobs = []
    · exact .refl ⟨rfl, hopen, hdone⟩
    obtain ⟨pc, hmem⟩ := List.exists_mem_of_length_pos (by rw [h.workers_length]; omega)
    obtain ⟨w, hw⟩ := List.getElem?_of_mem hmem
    have hne : pc ≠ .recv ∨ s.jobs ≠ [] := by
      by_cases hjobs : s.jobs = []
      · exact .inl fun hpc => hdone (.inr ⟨w, hpc ▸ hw, hjobs⟩)
      · exact .inr hjobs
    obtain ⟨a, t, ha, ht, hlt, hq, hsub⟩ := exists_worker_step_open h.inv hopen hw hne
    obtain ⟨acts, hacts, u, hrun, hsub', hopen', hroom⟩ :=
      ih _ (hn ▸ hlt) (h.step a ht) (hq.jobsClosed.trans hopen) rfl
    exact .cons ha ht ⟨acts, hacts, u, hrun, hsub'.trans hsub, hopen', hroom⟩

/-- A step keeps call `i` past the add to `Submitted`. -/
theorem step_admitted {a : Action} (hs : s.step a = some s') {pc : SubmitPc}
    (hpc : s.submits[i]? = some pc) (hw : pc.admitted) :
    ∃ pc', s'.submits[i]? = some pc' ∧ pc'.admitted := by
  rcases submits_of_step hs with heq | ⟨-, heq⟩ | ⟨j, q, q', -, hq, hm, heq⟩
  · exact ⟨pc, heq ▸ hpc, hw⟩
  · exact ⟨pc, by rw [heq, List.getElem?_append_left (lt_length_of_getElem? hpc)]; exact hpc, hw⟩
  rw [heq]
  by_cases hji : j = i
  · subst hji
    obtain rfl := Option.some.inj (hq.symm.trans hpc)
    exact ⟨q', by simp [lt_length_of_getElem? hpc], hm.admitted hw⟩
  · exact ⟨pc, by rw [List.getElem?_set_ne hji]; exact hpc, hw⟩

end Pool

/-- Closing `p.jobs` does not wake a call waiting in its `select` with an error. Its send is
enabled at once and panics (`send on closed channel`); in every continuation the call has not
moved, has panicked, or has taken its context's branch, and it never returns `nil`. So
`Shutdown` makes every call of `Submit` blocked on a full buffer panic, unless its context is
done first. -/
theorem waiting_submit_panics_on_close {cfg : Config} {s : Pool} (h : Reachable cfg s) {i : Nat}
    (hi : s.submits[i]? = some .select) (hjc : s.jobsClosed = true) :
    s.step (.submit i) = some { s with submits := s.submits.set i .panicked } ∧
    ∀ acts s', s.run acts = some s' → ∀ pc, s'.submits[i]? = some pc →
      pc = .select ∨ pc = .panicked ∨
        ∃ c, pc = .withdraw c ∨ pc = .returned (some (.submitCancelled c)) := by
  refine ⟨by simp [Pool.step, Pool.submit, hi, hjc], fun acts s' hrun pc hpc => ?_⟩
  obtain ⟨pc', hpc', hw⟩ := Pool.run_preserves (fun t => ∃ pc, t.submits[i]? = some pc ∧ pc.admitted)
    (fun ⟨_, hq, hw⟩ ht => Pool.step_admitted ht hq hw) hrun ⟨_, hi, rfl⟩
  obtain rfl := Option.some.inj (hpc'.symm.trans hpc)
  have hsent : i ∉ s'.sent := Pool.run_sent_of_jobsClosed hjc hrun ▸ h.inv.not_mem_sent hi (by simp)
  have hnil : pc' ≠ .returned none := fun h0 =>
    hsent (((h.run hrun).inv.sent_iff i).mpr (h0 ▸ hpc))
  rcases pc' with _ | _ | _ | _ | c | (_ | (_ | _ | c)) | _ <;> simp_all

/-- On `oneSlot`, with the worker inside job `0` and job `1` in the buffer, call `2` waits in its
`select`; `Shutdown` closes `p.jobs`, and the send of call `2` panics. -/
theorem waiting_submit_panics_on_close_on_oneSlot :
    ∃ s s', Reachable oneSlot s ∧ s.jobs = [1] ∧ s.submits[2]? = some .select ∧
      s.jobsClosed = true ∧ s.step (.submit 2) = some s' ∧ s'.submits[2]? = some .panicked := by
  obtain ⟨s, hr, hjobs, hi, hjc⟩ : ∃ s, Reachable oneSlot s ∧ s.jobs = [1] ∧
      s.submits[2]? = some .select ∧ s.jobsClosed = true :=
    ⟨_, reachable_of_run oneSlot [.callSubmit, .submit 0, .submit 0, .submit 0, .worker 0, .worker 0,
      .worker 0, .callSubmit, .submit 1, .submit 1, .submit 1, .callSubmit, .submit 2, .submit 2,
      .callShutdown, .shutdown 0, .drain, .drain] rfl, by rfl, by rfl, by rfl⟩
  exact ⟨s, _, hr, hjobs, hi, hjc, (waiting_submit_panics_on_close hr hi hjc).1,
    by simp [lt_length_of_getElem? hi]⟩

/-- A call of `Submit` waiting in its `select` on the open channel needs nothing from its
caller: steps of the pool's own goroutines and returns of jobs lead to a state where it sends,
into a free slot of the buffer or to a worker waiting at its receive, and returns `nil`. -/
theorem submit_can_complete {cfg : Config} {s : Pool} (h : Reachable cfg s) {i : Nat}
    (hi : s.submits[i]? = some .select) (hopen : s.jobsClosed = false) :
    ∃ acts a s', (∀ b ∈ acts, b.internal) ∧ (a = .submit i ∨ ∃ w, a = .handOff i w) ∧
      s.run (acts ++ [a]) = some s' ∧ s'.submits[i]? = some (.returned none) ∧ i ∈ s'.sent := by
  obtain ⟨acts, hacts, t, hrun, hsub, hopen', hroom⟩ := Pool.workers_free_room h hopen
  have hi' : t.submits[i]? = some .select := hsub ▸ hi
  have hlt := lt_length_of_getElem? hi'
  obtain ⟨a, t', ha, ht', hret, hsent⟩ : ∃ a t', (a = .submit i ∨ ∃ w, a = .handOff i w) ∧
      t.step a = some t' ∧ t'.submits[i]? = some (.returned none) ∧ i ∈ t'.sent := by
    rcases hroom with hroom | ⟨w, hw, hjobs⟩
    · exact ⟨_, _, .inl rfl, Pool.send_of_room hi' hopen' hroom, by simp [hlt], by simp⟩
    · exact ⟨_, _, .inr ⟨w, rfl⟩, Pool.handOff_of_recv hi' hw hopen' hjobs, by simp [hlt], by simp⟩
  exact ⟨acts, a, t', hacts, ha, by simp [Pool.run_append hrun, Pool.run_cons, ht'], hret, hsent⟩

/-- The run of `TestSubmitRespectsCallerContext` without the deadline: on `unbuffered`, once job
`0` returns, the worker takes the job of call `1`. -/
theorem submit_can_complete_on_unbuffered :
    ∃ s acts a s', Reachable unbuffered s ∧ s.workers = [.run 0] ∧ s.submits[1]? = some .select ∧
      (∀ b ∈ acts, b.internal) ∧ s.run (acts ++ [a]) = some s' ∧
      s'.submits[1]? = some (.returned none) := by
  obtain ⟨s, hr, hw, hi, hopen⟩ : ∃ s, Reachable unbuffered s ∧ s.workers = [.run 0] ∧
      s.submits[1]? = some .select ∧ s.jobsClosed = false :=
    ⟨_, reachable_of_run unbuffered [.callSubmit, .submit 0, .submit 0, .handOff 0 0, .worker 0,
      .worker 0, .callSubmit, .submit 1, .submit 1] rfl, by rfl, by rfl, by rfl⟩
  obtain ⟨acts, a, s', hacts, -, hrun, hret, -⟩ := submit_can_complete hr hi hopen
  exact ⟨s, acts, a, s', hr, hw, hi, hacts, hrun, hret⟩

end WorkerPool
