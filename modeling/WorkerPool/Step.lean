import WorkerPool.Pool

/-! # The steps of the goroutines

One atomic step of one goroutine is one `Action`; `Pool.step` performs it, and is `none` when
the goroutine cannot take that step (it is blocked, or has nothing left to do). A run is any
sequence of actions, so every interleaving of the goroutines is a run.

* `Pool.submit`, `Pool.handOff`, `Pool.abandon`: the steps of `(*Pool).Submit`. The send of
  the `select` is `Pool.submit` when it goes into the buffer, and `Pool.handOff` when it meets
  a worker blocked in its receive on an empty channel (the only way through an unbuffered
  channel). A send on the closed channel panics. The caller's context may be done at any
  time, so the `select` may always take `<-ctx.Done()` (`Pool.abandon`).
* `Pool.runWorker`, `Pool.finish`: the loop of `(*Pool).runWorker`, and the return of the job
  it invoked.
* `Pool.shutdown`, `Pool.drain`, `Pool.timer`, `Pool.waitStep`: `(*Pool).Shutdown`, the body
  of the function it passes to `p.once.Do`, the timer of its `select`, and the goroutine
  that waits on `p.wg`.

`Reachable cfg` holds of the states of every run of a pool made by `New(cfg)`. -/

namespace WorkerPool

/-- One atomic step of one goroutine. -/
inductive Action
  /-- A new goroutine calls `p.Submit`; its job is named by the call's index. -/
  | callSubmit
  /-- A new goroutine calls `p.Shutdown`. -/
  | callShutdown
  | submit (i : Nat)
  | handOff (i w : Nat)
  | abandon (i : Nat) (cause : CtxErr)
  | worker (w : Nat)
  /-- The job invoked by worker `w` returns: `nil` when `ok`. -/
  | finish (w : Nat) (ok : Bool)
  | shutdown (k : Nat)
  | drain
  | timer
  | waiter
  deriving DecidableEq, Repr

namespace Pool

/-- The next step of call `i` of `Submit`, other than the hand-off and `<-ctx.Done()`. -/
def submit (s : Pool) (i : Nat) : Option Pool :=
  match s.submits[i]? with
  | some .load => some { s with submits := s.submits.set i (if s.closed then .reject else .accept) }
  | some .reject => some { s with
      submits := s.submits.set i (.returned (some .errPoolClosed))
      metrics := { s.metrics with dropped := s.metrics.dropped + 1 } }
  | some .accept => some { s with
      submits := s.submits.set i .select
      metrics := { s.metrics with submitted := s.metrics.submitted + 1 } }
  | some .select =>
    if s.jobsClosed then some { s with submits := s.submits.set i .panicked }
    else if s.jobs.length < s.queueSize then some { s with
      submits := s.submits.set i (.returned none)
      jobs := s.jobs ++ [i]
      sent := s.sent ++ [i] }
    else none
  | some (.withdraw cause) => some { s with
      submits := s.submits.set i (.returned (some (.submitCancelled cause)))
      metrics := { s.metrics with dropped := s.metrics.dropped + 1 } }
  | _ => none

/-- The send of call `i` of `Submit` meets worker `w` blocked in its receive on the empty open
channel, and hands its job over. -/
def handOff (s : Pool) (i w : Nat) : Option Pool :=
  if s.submits[i]? = some .select ∧ s.workers[w]? = some .recv ∧ s.jobsClosed = false ∧
      s.jobs = [] then
    some { s with
      submits := s.submits.set i (.returned none)
      workers := s.workers.set w (.check i)
      sent := s.sent ++ [i]
      received := s.received ++ [i] }
  else none

/-- The `select` of call `i` of `Submit` takes `<-ctx.Done()`, whose `ctx.Err()` is `cause`. -/
def abandon (s : Pool) (i : Nat) (cause : CtxErr) : Option Pool :=
  if s.submits[i]? = some .select then some { s with submits := s.submits.set i (.withdraw cause) }
  else none

/-- The next step of worker `w`, other than the return of the job it invoked. -/
def runWorker (s : Pool) (w : Nat) : Option Pool :=
  match s.workers[w]? with
  | some .recv =>
    match s.jobs with
    | j :: rest => some { s with
        jobs := rest
        workers := s.workers.set w (.check j)
        received := s.received ++ [j] }
    | [] =>
      if s.jobsClosed then some { s with workers := s.workers.set w .exited, wg := s.wg - 1 }
      else none
  | some (.check j) => some { s with workers := s.workers.set w (if s.cancelled then .skip j else .start j) }
  | some (.skip _) => some { s with
      workers := s.workers.set w .recv
      metrics := { s.metrics with failed := s.metrics.failed + 1 }
      skipped := s.skipped + 1 }
  | some (.start j) => some { s with
      workers := s.workers.set w (.run j)
      metrics := { s.metrics with started := s.metrics.started + 1 }
      lateStarts := if s.cancelled then s.lateStarts + 1 else s.lateStarts }
  | _ => none

/-- The job invoked by worker `w` returns, `nil` when `ok`. -/
def finish (s : Pool) (w : Nat) (ok : Bool) : Option Pool :=
  match s.workers[w]? with
  | some (.run _) =>
    if ok then some { s with
      workers := s.workers.set w .recv
      metrics := { s.metrics with succeeded := s.metrics.succeeded + 1 } }
    else some { s with
      workers := s.workers.set w .recv
      metrics := { s.metrics with failed := s.metrics.failed + 1 }
      runErrors := s.runErrors + 1 }
  | _ => none

/-- Call `k` of `Shutdown` at `p.once.Do`: it runs the function if the once is unused, waits
while another call runs it, and returns its `nil` `shutdownErr` once it has run. -/
def shutdown (s : Pool) (k : Nat) : Option Pool :=
  match s.shutdowns[k]?, s.once with
  | some .enter, .idle => some { s with shutdowns := s.shutdowns.set k .inDo, once := .running k .store }
  | some .enter, .done _ => some { s with shutdowns := s.shutdowns.set k (.returned none) }
  | _, _ => none

/-- The next step of the function passed to `p.once.Do`. When it returns, the call that ran
it returns its `shutdownErr`. -/
def drain (s : Pool) : Option Pool :=
  match s.once with
  | .running k .store => some { s with closed := true, once := .running k .close }
  | .running k .close => some { s with jobsClosed := true, once := .running k .spawn }
  | .running k .spawn => some { s with waiter := .wait, once := .running k .select }
  | .running k .select =>
    if s.waiter = .done then
      some { s with once := .done k, shutdowns := s.shutdowns.set k (.returned none) }
    else none
  | .running k .cancel => some { s with
      cancelled := true
      cancels := s.cancels + 1
      once := .running k .await }
  | .running k .await =>
    if s.waiter = .done then
      some { s with once := .done k, shutdowns := s.shutdowns.set k (.returned (some .errShutdownTimeout)) }
    else none
  | _ => none

/-- `time.After(p.cfg.ShutdownTimeout)` fires while the function is in its `select`. -/
def timer (s : Pool) : Option Pool :=
  match s.once with
  | .running k .select => some { s with once := .running k .cancel }
  | _ => none

/-- `p.wg.Wait()` returns once the counter is zero, and `close(done)` runs. -/
def waitStep (s : Pool) : Option Pool :=
  if s.waiter = .wait ∧ s.wg = 0 then some { s with waiter := .done } else none

/-- One atomic step. -/
def step (s : Pool) : Action → Option Pool
  | .callSubmit => some { s with submits := s.submits ++ [.load] }
  | .callShutdown => some { s with shutdowns := s.shutdowns ++ [.enter] }
  | .submit i => s.submit i
  | .handOff i w => s.handOff i w
  | .abandon i cause => s.abandon i cause
  | .worker w => s.runWorker w
  | .finish w ok => s.finish w ok
  | .shutdown k => s.shutdown k
  | .drain => s.drain
  | .timer => s.timer
  | .waiter => s.waitStep

/-- The state after a sequence of steps, if every one of them can be taken. -/
def run (s : Pool) : List Action → Option Pool
  | [] => some s
  | a :: acts => (s.step a).bind fun s' => s'.run acts

@[simp] theorem run_nil (s : Pool) : s.run [] = some s := rfl

theorem run_cons (s : Pool) (a : Action) (acts : List Action) :
    s.run (a :: acts) = (s.step a).bind fun s' => s'.run acts := rfl

theorem run_append {s s' : Pool} {acts₁ : List Action} (h : s.run acts₁ = some s')
    (acts₂ : List Action) : s.run (acts₁ ++ acts₂) = s'.run acts₂ := by
  induction acts₁ generalizing s with
  | nil => cases h; rfl
  | cons a acts ih =>
    simp only [run_cons, List.cons_append, Option.bind_eq_some] at h ⊢
    obtain ⟨t, ht, h⟩ := h
    simp [ht, ih h]

/-- What every step keeps, every run keeps. -/
theorem run_preserves (P : Pool → Prop) (hstep : ∀ {t t' : Pool} {a : Action}, P t → t.step a = some t' → P t')
    {s s' : Pool} {acts : List Action} (hrun : s.run acts = some s') (hs : P s) : P s' := by
  induction acts generalizing s with
  | nil => cases hrun; exact hs
  | cons a acts ih =>
    simp only [run_cons, Option.bind_eq_some] at hrun
    obtain ⟨t, ht, hrun⟩ := hrun
    exact ih hrun (hstep hs ht)

end Pool

/-- The states of the runs of a pool made by `New(cfg)`. -/
inductive Reachable (cfg : Config) : Pool → Prop
  | new {s : Pool} : Pool.new cfg = some s → Reachable cfg s
  | step {s s' : Pool} (a : Action) : Reachable cfg s → s.step a = some s' → Reachable cfg s'

theorem Reachable.run {cfg : Config} {s s' : Pool} (h : Reachable cfg s) {acts : List Action}
    (hrun : s.run acts = some s') : Reachable cfg s' :=
  Pool.run_preserves (Reachable cfg) (fun ht hs => .step _ ht hs) hrun h

/-- A state that a schedule reaches from `New(cfg)` is reachable. -/
theorem reachable_of_run (cfg : Config) (acts : List Action) {s : Pool}
    (h : ((Pool.new cfg).bind fun s₀ => s₀.run acts) = some s) : Reachable cfg s := by
  simp only [Option.bind_eq_some] at h
  obtain ⟨s₀, h₀, h⟩ := h
  exact (Reachable.new h₀).run h

end WorkerPool
