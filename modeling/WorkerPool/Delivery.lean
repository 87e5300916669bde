import WorkerPool.Shutdown

/-! # Delivery: no job lost, none duplicated, in submission order

`p.jobs` is a FIFO whose history is `sent`; the jobs received, followed by those still
buffered, are `sent` (`Pool.Inv.fifo`). So the receive order is a prefix of the send order,
and every job is received at most once. When `Shutdown` returns the buffer is empty, so every
job sent was received (`no_job_lost_or_duplicated`). A call of `Submit` that began after
another returned `nil` sends after it, so its job is received after the other's
(`delivered_in_submission_order`). -/

namespace WorkerPool

namespace Pool

theorem run_sent_grows {s s' : Pool} {acts : List Action} (h : s.run acts = some s') :
    s.sent <+: s'.sent :=
  run_preserves (fun t => s.sent <+: t.sent) (fun hp ht => hp.trans (step_frame ht).sent_grows) h
    (List.prefix_refl _)

/-- Nothing is sent once `p.jobs` is closed. -/
theorem run_sent_of_jobsClosed {s s' : Pool} {acts : List Action} (hjc : s.jobsClosed = true)
    (h : s.run acts = some s') : s'.sent = s.sent :=
  (run_preserves (fun t => t.jobsClosed = true ∧ t.sent = s.sent)
    (fun ⟨hjc, hsent⟩ ht => ((step_frame ht).sent_closed hjc).imp_right (·.trans hsent)) h ⟨hjc, rfl⟩).2

namespace Inv

variable {s : Pool}

theorem received_sent (h : s.Inv) : s.received <+: s.sent := ⟨s.jobs, h.fifo⟩

theorem received_nodup (h : s.Inv) : s.received.Nodup :=
  h.sent_nodup.sublist h.received_sent.sublist

end Inv

end Pool

/-- No job is lost or duplicated. No job is ever received twice. Once any call of `Shutdown` has
returned, every job whose `Submit` returned `nil` has been received exactly once, and no
later step sends a job. The job of a call that returned an error is never received nor held
by a worker. Once `Shutdown` and every `Submit` have returned,
`Submitted = Succeeded + Failed + C` and `Dropped = P + C`, with `C` the calls that returned
their context's error and `P` those that returned `ErrPoolClosed`. -/
theorem no_job_lost_or_duplicated {cfg : Config} {s : Pool} (h : Reachable cfg s) :
    s.received.Nodup ∧
    (∀ (k : Nat) (r : Option PoolError), s.shutdowns[k]? = some (.returned r) →
      (∀ j : Nat, s.submits[j]? = some (.returned none) → s.received.count j = 1) ∧
      ∀ acts s', s.run acts = some s' → s'.sent = s.sent) ∧
    (∀ (j : Nat) (e : PoolError), s.submits[j]? = some (.returned (some e)) →
      j ∉ s.received ∧ ∀ (w : Nat) (pc : WorkerPc), s.workers[w]? = some pc → pc.job ≠ some j) ∧
    (∀ (k : Nat) (r : Option PoolError), s.shutdowns[k]? = some (.returned r) →
      s.SubmitsReturned →
      s.metrics.submitted =
        s.metrics.succeeded + s.metrics.failed + s.submits.countP SubmitPc.cancelled ∧
      s.metrics.dropped =
        s.submits.countP SubmitPc.rejected + s.submits.countP SubmitPc.cancelled) := by
  have hi := h.inv
  have hnot : ∀ (j : Nat) (e : PoolError), s.submits[j]? = some (.returned (some e)) →
      j ∉ s.received := fun j e hj hr => by
    have := (hi.sent_iff j).mp (hi.received_sent.subset hr)
    simp [hj] at this
  refine ⟨hi.received_nodup, fun k r hk => ⟨fun j hj => ?_, fun _ _ hrun => ?_⟩,
    fun j e hj => ⟨hnot j e hj, fun w pc hw hpc => hnot j e hj (hi.held w pc j hw hpc)⟩,
    fun k r hk hsub => ?_⟩
  · obtain ⟨-, -, -, hjobs⟩ := h.drained hk
    have hsent : s.received = s.sent := by simpa [hjobs] using hi.fifo
    exact List.count_eq_one_of_mem hi.received_nodup (hsent ▸ (hi.sent_iff j).mpr hj)
  · obtain ⟨-, -, hjc, -⟩ := h.drained hk
    exact Pool.run_sent_of_jobsClosed hjc hrun
  · obtain ⟨hall, -, -, hjobs⟩ := h.drained hk
    exact hi.settled hall hjobs hsub

theorem no_job_lost_on_cleanRun :
    ∃ s, Reachable oneSlot s ∧ s.shutdowns[0]? = some (.returned none) ∧
      s.submits[0]? = some (.returned none) ∧ s.received.count 0 = 1 := by
  obtain ⟨s, hr, hk, hj⟩ : ∃ s, Reachable oneSlot s ∧ s.shutdowns[0]? = some (.returned none) ∧
      s.submits[0]? = some (.returned none) :=
    ⟨_, reachable_of_run oneSlot cleanRun rfl, by decide, by decide⟩
  exact ⟨s, hr, hk, hj, ((no_job_lost_or_duplicated hr).2.1 0 none hk).1 0 hj⟩

/-- Jobs are received in submission order. If call `i` of `Submit` has returned `nil` in a
reachable state, and then a new call begins (its job is named by the number of calls so
far), then in every continuation in which the new job has been received, job `i` was
received before it. -/
theorem delivered_in_submission_order {cfg : Config} {s₁ s : Pool} {i : Nat}
    {acts : List Action} (h₁ : Reachable cfg s₁) (hi : s₁.submits[i]? = some (.returned none))
    (hrun : s₁.run (.callSubmit :: acts) = some s) (hj : s₁.submits.length ∈ s.received) :
    [i, s₁.submits.length].Sublist s.received := by
  have hs := (h₁.run hrun).inv
  have hi₁ : i ∈ s₁.sent := (h₁.inv.sent_iff i).mpr hi
  have hj₁ : s₁.submits.length ∉ s₁.sent := by simp [h₁.inv.sent_iff]
  rcases List.prefix_or_prefix_of_prefix (Pool.run_sent_grows hrun) hs.received_sent with
    ⟨u, hu⟩ | hpre
  · rw [← hu] at hj ⊢
    have hju : s₁.submits.length ∈ u := (List.mem_append.mp hj).resolve_left hj₁
    exact (List.singleton_sublist.mpr hi₁).append (List.singleton_sublist.mpr hju)
  · exact absurd (hpre.subset hj) hj₁

/-- On `oneSlot`: job `0` is sent; then job `1` is submitted, and sent once the worker has taken
job `0`; the worker runs job `0` and takes job `1`. -/
theorem delivered_in_submission_order_on_oneSlot :
    ∃ s₁ s, Reachable oneSlot s₁ ∧ s₁.submits[0]? = some (.returned none) ∧
      s₁.run (.callSubmit :: [.worker 0, .submit 1, .submit 1, .submit 1, .worker 0, .worker 0,
        .finish 0 true, .worker 0]) = some s ∧ [0, 1].Sublist s.received := by
  obtain ⟨s₁, s, h₁, hi, hrun, hj, hlen⟩ : ∃ s₁ s, Reachable oneSlot s₁ ∧
      s₁.submits[0]? = some (.returned none) ∧
      s₁.run (.callSubmit :: [.worker 0, .submit 1, .submit 1, .submit 1, .worker 0, .worker 0,
        .finish 0 true, .worker 0]) = some s ∧
      s₁.submits.length ∈ s.received ∧ s₁.submits.length = 1 :=
    ⟨_, _, reachable_of_run oneSlot [.callSubmit, .submit 0, .submit 0, .submit 0] rfl, by decide,
      rfl, by decide, by decide⟩
  exact ⟨s₁, s, h₁, hi, hrun, hlen ▸ delivered_in_submission_order h₁ hi hrun hj⟩

end WorkerPool
