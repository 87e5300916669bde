import WorkerPool.Shutdown

/-! # `(*Pool).Metrics`

`Metrics()` makes five atomic loads, one per counter, in the order of the fields, while the
other goroutines go on stepping. A call that begins in state `s` of a run `acts` and makes its
loads after the first `t₁ ≤ … ≤ t₅` steps returns `Pool.metricsSnapshot s acts t₁ t₂ t₃ t₄ t₅`.
Each field is a value its counter had between the call and the return
(`Pool.metricsSnapshot_between`); across fields the snapshot need not be the counters of any
one state. Once `Shutdown` has returned, the fields the workers add to are exact
(`snapshot_after_shutdown`). -/

namespace WorkerPool

namespace Pool

/-- The counters after the first `t` steps of the run `acts` from `s`, if it can take them. -/
def loadAt (s : Pool) (acts : List Action) (t : Nat) : Option Metrics :=
  (s.run (acts.take t)).map Pool.metrics

/-- `(*Pool).Metrics`, called in `s`, loading `Submitted`, `Started`, `Succeeded`, `Failed` and
`Dropped` after the first `t₁`, `t₂`, `t₃`, `t₄` and `t₅` steps of the run `acts`. -/
def metricsSnapshot (s : Pool) (acts : List Action) (t₁ t₂ t₃ t₄ t₅ : Nat) : Option Metrics := do
  let m₁ ← s.loadAt acts t₁
  let m₂ ← s.loadAt acts t₂
  let m₃ ← s.loadAt acts t₃
  let m₄ ← s.loadAt acts t₄
  let m₅ ← s.loadAt acts t₅
  pure ⟨m₁.submitted, m₂.started, m₃.succeeded, m₄.failed, m₅.dropped⟩

variable {s s' : Pool}

theorem run_append_inv {acts₁ acts₂ : List Action} (h : s.run (acts₁ ++ acts₂) = some s') :
    ∃ m, s.run acts₁ = some m ∧ m.run acts₂ = some s' := by
  induction acts₁ generalizing s with
  | nil => exact ⟨s, rfl, h⟩
  | cons a acts ih =>
    simp only [List.cons_append, run_cons, Option.bind_eq_some] at h
    obtain ⟨t, ht, h⟩ := h
    obtain ⟨m, hm, hrun⟩ := ih h
    exact ⟨m, by simp [run_cons, ht, hm], hrun⟩

/-- A load made during a run reads a value between the counters at the call and at the
return. -/
theorem loadAt_between {acts : List Action} (hrun : s.run acts = some s') (t : Nat) :
    ∃ m, s.loadAt acts t = some m ∧
      (s.metrics.submitted ≤ m.submitted ∧ m.submitted ≤ s'.metrics.submitted) ∧
      (s.metrics.started ≤ m.started ∧ m.started ≤ s'.metrics.started) ∧
      (s.metrics.succeeded ≤ m.succeeded ∧ m.succeeded ≤ s'.metrics.succeeded) ∧
      (s.metrics.failed ≤ m.failed ∧ m.failed ≤ s'.metrics.failed) ∧
      (s.metrics.dropped ≤ m.dropped ∧ m.dropped ≤ s'.metrics.dropped) := by
  rw [← List.take_append_drop t acts] at hrun
  obtain ⟨u, hu, hrest⟩ := run_append_inv hrun
  have h₁ := run_metrics_mono hu
  have h₂ := run_metrics_mono hrest
  exact ⟨u.metrics, by simp [loadAt, hu], by omega⟩

/-- A call of `Metrics()` made during a run returns, and each field of its snapshot lies between
the counter at the call and at the return. -/
theorem metricsSnapshot_between {acts : List Action} (hrun : s.run acts = some s')
    (t₁ t₂ t₃ t₄ t₅ : Nat) :
    ∃ m, s.metricsSnapshot acts t₁ t₂ t₃ t₄ t₅ = some m ∧
      (s.metrics.submitted ≤ m.submitted ∧ m.submitted ≤ s'.metrics.submitted) ∧
      (s.metrics.started ≤ m.started ∧ m.started ≤ s'.metrics.started) ∧
      (s.metrics.succeeded ≤ m.succeeded ∧ m.succeeded ≤ s'.metrics.succeeded) ∧
      (s.metrics.failed ≤ m.failed ∧ m.failed ≤ s'.metrics.failed) ∧
      (s.metrics.dropped ≤ m.dropped ∧ m.dropped ≤ s'.metrics.dropped) := by
  obtain ⟨m₁, h₁, hm₁, -⟩ := loadAt_between hrun t₁
  obtain ⟨m₂, h₂, -, hm₂, -⟩ := loadAt_between hrun t₂
  obtain ⟨m₃, h₃, -, -, hm₃, -⟩ := loadAt_between hrun t₃
  obtain ⟨m₄, h₄, -, -, -, hm₄, -⟩ := loadAt_between hrun t₄
  obtain ⟨m₅, h₅, -, -, -, -, hm₅⟩ := loadAt_between hrun t₅
  exact ⟨⟨m₁.submitted, m₂.started, m₃.succeeded, m₄.failed, m₅.dropped⟩,
    by simp [metricsSnapshot, h₁, h₂, h₃, h₄, h₅], hm₁, hm₂, hm₃, hm₄, hm₅⟩

end Pool

/-- Once a call of `Shutdown` has returned, a later call of `Metrics()` returns, as `Started`,
`Succeeded` and `Failed`, the values those counters had when `Shutdown` returned, whatever runs
meanwhile. -/
theorem snapshot_after_shutdown {cfg : Config} {s s' : Pool} (h : Reachable cfg s) {k : Nat}
    {r : Option PoolError} (hk : s.shutdowns[k]? = some (.returned r)) {acts : List Action}
    (hrun : s.run acts = some s') (t₁ t₂ t₃ t₄ t₅ : Nat) :
    ∃ m, s.metricsSnapshot acts t₁ t₂ t₃ t₄ t₅ = some m ∧ m.started = s.metrics.started ∧
      m.succeeded = s.metrics.succeeded ∧ m.failed = s.metrics.failed := by
  obtain ⟨hall, -⟩ := h.drained hk
  obtain ⟨hst, hsu, hfa⟩ := Pool.run_of_allExited hall hrun
  obtain ⟨m, hm, -, ⟨hst₁, hst₂⟩, ⟨hsu₁, hsu₂⟩, ⟨hfa₁, hfa₂⟩, -⟩ :=
    Pool.metricsSnapshot_between hrun t₁ t₂ t₃ t₄ t₅
  exact ⟨m, hm, by omega, by omega, by omega⟩

/-- On `oneSlot`, after `cleanRun` the call of `Shutdown` has returned; a later `Metrics()`, made
while a new call of `Submit` is rejected, reads `Succeeded = 1`. -/
theorem snapshot_after_shutdown_on_cleanRun :
    ∃ s s' m, Reachable oneSlot s ∧ s.shutdowns[0]? = some (.returned none) ∧
      s.run [.callSubmit, .submit 1, .submit 1] = some s' ∧
      s.metricsSnapshot [.callSubmit, .submit 1, .submit 1] 0 1 2 3 3 = some m ∧
      m.succeeded = s.metrics.succeeded ∧ m.succeeded = 1 := by
  obtain ⟨s, s', hr, hk, hrun, h1⟩ : ∃ s s', Reachable oneSlot s ∧
      s.shutdowns[0]? = some (.returned none) ∧ s.run [.callSubmit, .submit 1, .submit 1] = some s' ∧
      s.metrics.succeeded = 1 :=
    ⟨_, _, reachable_of_run oneSlot cleanRun rfl, by decide, rfl, by decide⟩
  obtain ⟨m, hm, -, hsu, -⟩ := snapshot_after_shutdown hr hk hrun 0 1 2 3 3
  exact ⟨s, s', m, hr, hk, hrun, hm, hsu, hsu.trans h1⟩

end WorkerPool
