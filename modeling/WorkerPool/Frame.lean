import WorkerPool.Invariant

/-! # What one step leaves alone

`Control.Step` classifies, once, what a step does to the part of the state that only
`Shutdown` writes (`Pool.control_step`): the once, `p.closed`, the closing of `p.jobs` and the
cancelling of `p.workerCtx`. Every fact about that part is read off the classification: each
flag is set once and never reset, only the store sets `p.closed`, only the close closes
`p.jobs`, only `p.cancelWorkers()` after the timer cancels, and the once only moves forward and
keeps its owner.

`Pool.Frame s a s'` adds what every step keeps of the rest: the number of workers and the
capacity of `p.jobs`, the counters of `Metrics` (only added to), the history of sends (which
only grows, and not at all once the channel is closed), and the places and counters of the
workers when no worker moves. Each step function has its own frame lemma (`Pool.submit_frame`
to `Pool.waitStep_frame`), and `Pool.step_frame` only dispatches on the action. -/

namespace WorkerPool

/-- The call of `Shutdown` that won the `sync.Once`, if any. -/
def OnceState.owner : OnceState → Option Nat
  | .idle => none
  | .running k _ | .done k => some k

/-- The part of the state that only `Shutdown`, the function it runs and its timer write: the
once, `p.closed`, the closing of `p.jobs` and the cancelling of `p.workerCtx`. -/
structure Control where
  once : OnceState
  closed : Bool
  jobsClosed : Bool
  cancelled : Bool

/-- The control part of a state. -/
def Pool.control (s : Pool) : Control := ⟨s.once, s.closed, s.jobsClosed, s.cancelled⟩

/-- The moves of the control part, each with the step that makes it. -/
inductive Control.Step : Action → Control → Control → Prop
  | stay (a : Action) (c : Control) : Step a c c
  | enter (k : Nat) (c j x : Bool) : Step (.shutdown k) ⟨.idle, c, j, x⟩ ⟨.running k .store, c, j, x⟩
  | store (k : Nat) (c j x : Bool) :
      Step .drain ⟨.running k .store, c, j, x⟩ ⟨.running k .close, true, j, x⟩
  | close (k : Nat) (c j x : Bool) :
      Step .drain ⟨.running k .close, c, j, x⟩ ⟨.running k .spawn, c, true, x⟩
  | spawn (k : Nat) (c j x : Bool) :
      Step .drain ⟨.running k .spawn, c, j, x⟩ ⟨.running k .select, c, j, x⟩
  | timer (k : Nat) (c j x : Bool) :
      Step .timer ⟨.running k .select, c, j, x⟩ ⟨.running k .cancel, c, j, x⟩
  | cancel (k : Nat) (c j x : Bool) :
      Step .drain ⟨.running k .cancel, c, j, x⟩ ⟨.running k .await, c, j, true⟩
  | done (k : Nat) (d : DrainPc) (c j x : Bool) (hd : d = .select ∨ d = .await) :
      Step .drain ⟨.running k d, c, j, x⟩ ⟨.done k, c, j, x⟩

namespace Control.Step

variable {a : Action} {c c' : Control}

theorem closed_mono (h : Step a c c') (hc : c.closed = true) : c'.closed = true := by
  cases h <;> simp_all

theorem closed_step (h : Step a c c') (hc : c.closed = false) (hc' : c'.closed = true) :
    a = .drain ∧ ∃ k, c.once = .running k .store := by
  cases h <;> simp_all

theorem jobsClosed_mono (h : Step a c c') (hj : c.jobsClosed = true) : c'.jobsClosed = true := by
  cases h <;> simp_all

theorem jobsClosed_step (h : Step a c c') (hj : c.jobsClosed = false) (hj' : c'.jobsClosed = true) :
    a = .drain ∧ ∃ k, c.once = .running k .close := by
  cases h <;> simp_all

theorem cancelled_mono (h : Step a c c') (hx : c.cancelled = true) : c'.cancelled = true := by
  cases h <;> simp_all

theorem cancel_step (h : Step a c c') (hx : c.cancelled = false) (hx' : c'.cancelled = true) :
    a = .drain ∧ ∃ k, c.once = .running k .cancel := by
  cases h <;> simp_all

/-- The store of `p.closed` moves nothing else of the control part. -/
theorem store_keeps (h : Step a c c') {k : Nat} (hk : c.once = .running k .store) :
    c'.jobsClosed = c.jobsClosed ∧ c'.cancelled = c.cancelled := by
  cases h <;> simp_all

theorem timer_step (h : Step a c c') (k : Nat) (hk' : c'.once = .running k .cancel)
    (hk : c.once ≠ .running k .cancel) : a = .timer ∧ c.once = .running k .select := by
  cases h <;> simp_all

theorem progress_mono (h : Step a c c') : c.once.progress ≤ c'.once.progress := by
  cases h with
  | done _ _ _ _ _ hd => rcases hd with rfl | rfl <;> simp
  | _ => simp

theorem owner_stable (h : Step a c c') (hidle : c.once ≠ .idle) : c'.once.owner = c.once.owner := by
  cases h <;> simp_all [OnceState.owner]

end Control.Step

namespace Pool

variable {s s' : Pool}

/-- What a step does to the control part: only `Shutdown`, the function it runs and the timer
move it. -/
theorem control_step {a : Action} (hs : s.step a = some s') : Control.Step a s.control s'.control := by
  cases a with
  | shutdown k =>
    simp only [step, shutdown] at hs
    split at hs
    · rename_i honce
      cases hs
      simp only [control, honce]
      exact .enter _ _ _ _
    · cases hs
      exact .stay _ _
    · cases hs
  | drain =>
    simp only [step, drain] at hs
    cases honce : s.once with
    | running k d =>
      simp only [honce] at hs
      cases d <;> simp only [Option.some.injEq] at hs
      case select | await =>
        split at hs <;> cases hs
        simp only [control, honce]
        first | exact .done _ _ _ _ _ (.inl rfl) | exact .done _ _ _ _ _ (.inr rfl)
      all_goals
        subst hs
        simp only [control, honce]
        first | exact .store _ _ _ _ | exact .close _ _ _ _ | exact .spawn _ _ _ _ | exact .cancel _ _ _ _
    | idle | done => simp [honce] at hs
  | timer =>
    simp only [step, timer] at hs
    split at hs
    · rename_i honce
      cases hs
      simp only [control, honce]
      exact .timer _ _ _ _
    · cases hs
  | _ =>
    simp only [step, submit, handOff, abandon, runWorker, finish, waitStep] at hs
    repeat' split at hs
    all_goals first | (cases hs; exact .stay _ _) | cases hs

end Pool

/-- What a step from `s` by `a` to `s'` keeps. -/
structure Pool.Frame (s : Pool) (a : Action) (s' : Pool) : Prop where
  control : Control.Step a s.control s'.control
  workers_length : s'.workers.length = s.workers.length
  queueSize_eq : s'.queueSize = s.queueSize
  /-- The counters of `Metrics` are only added to. -/
  metrics_mono : s.metrics.submitted ≤ s'.metrics.submitted ∧ s.metrics.started ≤ s'.metrics.started ∧
    s.metrics.succeeded ≤ s'.metrics.succeeded ∧ s.metrics.failed ≤ s'.metrics.failed ∧
    s.metrics.dropped ≤ s'.metrics.dropped
  sent_grows : s.sent <+: s'.sent
  /-- Nothing is sent on a closed channel: a send there panics. -/
  sent_of_closed : s.jobsClosed = true → s'.sent = s.sent
  /-- A step of a goroutine other than a worker (or of a send handing a job to one) moves no
  worker and changes none of the counters the workers add to. -/
  others : (∀ w, a ≠ .worker w) → (∀ w ok, a ≠ .finish w ok) → (∀ i w, a ≠ .handOff i w) →
    s'.workers = s.workers ∧ s'.metrics.started = s.metrics.started ∧
      s'.metrics.succeeded = s.metrics.succeeded ∧ s'.metrics.failed = s.metrics.failed

namespace Pool

variable {s s' : Pool}

/-- A step that moves no worker, adds to no counter and sends nothing. -/
theorem Frame.of_keeps {a : Action} (hc : Control.Step a s.control s'.control)
    (hw : s'.workers = s.workers) (hq : s'.queueSize = s.queueSize) (hm : s'.metrics = s.metrics)
    (hsent : s'.sent = s.sent) : s.Frame a s' :=
  ⟨hc, by rw [hw], hq, by simp [hm], by simp [hsent], fun _ => hsent,
    fun _ _ _ => ⟨hw, by rw [hm], by rw [hm], by rw [hm]⟩⟩

/-- A step of `Submit` moves no worker and adds only to `Submitted` (past the load) or `Dropped`
(on `ErrPoolClosed` and on `<-ctx.Done()`). Its send puts its own job in the buffer, and only
while `p.jobs` is open. -/
theorem submit_frame {i : Nat} (hs : s.step (.submit i) = some s') : s.Frame (.submit i) s' := by
  have hc := control_step hs
  simp only [step, submit] at hs
  split at hs
  · cases hs; exact .of_keeps hc rfl rfl rfl rfl
  · cases hs; exact ⟨hc, rfl, rfl, by simp, by simp, fun _ => rfl, fun _ _ _ => ⟨rfl, rfl, rfl, rfl⟩⟩
  · cases hs; exact ⟨hc, rfl, rfl, by simp, by simp, fun _ => rfl, fun _ _ _ => ⟨rfl, rfl, rfl, rfl⟩⟩
  · split at hs
    · cases hs; exact .of_keeps hc rfl rfl rfl rfl
    · rename_i hopen
      split at hs <;> cases hs
      exact ⟨hc, rfl, rfl, by simp, List.prefix_append _ _, fun h => absurd h hopen,
        fun _ _ _ => ⟨rfl, rfl, rfl, rfl⟩⟩
  · cases hs; exact ⟨hc, rfl, rfl, by simp, by simp, fun _ => rfl, fun _ _ _ => ⟨rfl, rfl, rfl, rfl⟩⟩
  · cases hs

/-- The send of `Submit` to a worker waiting on the empty open channel moves that worker only, and
adds to no counter. -/
theorem handOff_frame {i w : Nat} (hs : s.step (.handOff i w) = some s') :
    s.Frame (.handOff i w) s' := by
  have hc := control_step hs
  simp only [step, handOff] at hs
  split at hs
  · rename_i hcond
    cases hs
    exact ⟨hc, by simp, rfl, by simp, List.prefix_append _ _,
      fun h => by simp [hcond.2.2.1] at h, fun _ _ h => absurd rfl (h i w)⟩
  · cases hs

/-- `<-ctx.Done()` in `Submit` moves only its call. -/
theorem abandon_frame {i : Nat} {cause : CtxErr} (hs : s.step (.abandon i cause) = some s') :
    s.Frame (.abandon i cause) s' := by
  have hc := control_step hs
  simp only [step, abandon] at hs
  split at hs <;> cases hs
  exact .of_keeps hc rfl rfl rfl rfl

/-- A worker's step keeps the number of workers, sends nothing, and adds only to `Started` (at
the invocation) and `Failed` (at the skip). -/
theorem runWorker_frame {w : Nat} (hs : s.step (.worker w) = some s') : s.Frame (.worker w) s' := by
  have hc := control_step hs
  simp only [step, runWorker] at hs
  (repeat' split at hs) <;> cases hs <;>
    exact ⟨hc, by simp, rfl, by simp, by simp, fun _ => rfl, fun h => absurd rfl (h w)⟩

/-- The return of a job moves its worker back to the receive and adds to `Succeeded` or
`Failed`. -/
theorem finish_frame {w : Nat} {ok : Bool} (hs : s.step (.finish w ok) = some s') :
    s.Frame (.finish w ok) s' := by
  have hc := control_step hs
  simp only [step, finish] at hs
  (repeat' split at hs) <;> cases hs <;>
    exact ⟨hc, by simp, rfl, by simp, by simp, fun _ => rfl, fun _ h => absurd rfl (h w ok)⟩

/-- A step of a call of `Shutdown` at `p.once.Do` moves only the calls of `Shutdown` and the
once. -/
theorem shutdown_frame {k : Nat} (hs : s.step (.shutdown k) = some s') :
    s.Frame (.shutdown k) s' := by
  have hc := control_step hs
  simp only [step, shutdown] at hs
  split at hs <;> cases hs <;> exact .of_keeps hc rfl rfl rfl rfl

/-- The function run by `p.once.Do` moves no worker, adds to no counter and sends nothing. -/
theorem drain_frame (hs : s.step .drain = some s') : s.Frame .drain s' := by
  have hc := control_step hs
  simp only [step, drain] at hs
  (repeat' split at hs) <;> cases hs <;> exact .of_keeps hc rfl rfl rfl rfl

/-- The timer of the `select` moves only the once. -/
theorem timer_frame (hs : s.step .timer = some s') : s.Frame .timer s' := by
  have hc := control_step hs
  simp only [step, timer] at hs
  split at hs <;> cases hs
  exact .of_keeps hc rfl rfl rfl rfl

/-- The waiter moves only itself. -/
theorem waitStep_frame (hs : s.step .waiter = some s') : s.Frame .waiter s' := by
  have hc := control_step hs
  simp only [step, waitStep] at hs
  split at hs <;> cases hs
  exact .of_keeps hc rfl rfl rfl rfl

theorem step_frame {a : Action} (hs : s.step a = some s') : s.Frame a s' := by
  cases a with
  | callSubmit | callShutdown => cases hs; exact .of_keeps (.stay _ _) rfl rfl rfl rfl
  | submit _ => exact submit_frame hs
  | handOff _ _ => exact handOff_frame hs
  | abandon _ _ => exact abandon_frame hs
  | worker _ => exact runWorker_frame hs
  | finish _ _ => exact finish_frame hs
  | shutdown _ => exact shutdown_frame hs
  | drain => exact drain_frame hs
  | timer => exact timer_frame hs
  | waiter => exact waitStep_frame hs

namespace Frame

variable {a : Action} (hf : s.Frame a s')
include hf

theorem closed_mono : s.closed = true → s'.closed = true := hf.control.closed_mono

theorem closed_step : s.closed = false → s'.closed = true →
    a = .drain ∧ ∃ k, s.once = .running k .store := hf.control.closed_step

theorem jobsClosed_step : s.jobsClosed = false → s'.jobsClosed = true →
    a = .drain ∧ ∃ k, s.once = .running k .close := hf.control.jobsClosed_step

/-- Nothing is sent on a closed channel, and it stays closed. -/
theorem sent_closed (hj : s.jobsClosed = true) : s'.jobsClosed = true ∧ s'.sent = s.sent :=
  ⟨hf.control.jobsClosed_mono hj, hf.sent_of_closed hj⟩

theorem store_keeps {k : Nat} : s.once = .running k .store →
    s'.jobsClosed = s.jobsClosed ∧ s'.cancelled = s.cancelled := hf.control.store_keeps

theorem cancelled_mono : s.cancelled = true → s'.cancelled = true := hf.control.cancelled_mono

/-- Only the function run by `p.once.Do`, at `p.cancelWorkers()`, cancels `p.workerCtx`. -/
theorem cancel_step : s.cancelled = false → s'.cancelled = true →
    a = .drain ∧ ∃ k, s.once = .running k .cancel := hf.control.cancel_step

/-- Only the timer of the `select` leads to `p.cancelWorkers()`. -/
theorem timer_step (k : Nat) : s'.once = .running k .cancel → s.once ≠ .running k .cancel →
    a = .timer ∧ s.once = .running k .select := hf.control.timer_step k

/-- The function run by `p.once.Do` only moves forward, in the call that won the once. -/
theorem progress_mono : s.once.progress ≤ s'.once.progress := hf.control.progress_mono

theorem owner_stable : s.once ≠ .idle → s'.once.owner = s.once.owner := hf.control.owner_stable

end Frame

end Pool

theorem Reachable.workers_length {cfg : Config} {s : Pool} (h : Reachable cfg s) :
    s.workers.length = (max 1 cfg.workers).toNat := by
  induction h with
  | new h =>
    simp only [Pool.new] at h
    split at h
    · cases h
    · cases h
      rw [List.length_replicate, cfg.withDefaults_spec.1]
  | step _ _ hs ih => rw [(Pool.step_frame hs).workers_length, ih]

theorem Reachable.queueSize {cfg : Config} {s : Pool} (h : Reachable cfg s) :
    s.queueSize = cfg.queueSize.toNat := by
  induction h with
  | new h =>
    simp only [Pool.new, Config.withDefaults] at h
    split at h
    · cases h
    · cases h
      rfl
  | step _ _ hs ih => rw [(Pool.step_frame hs).queueSize_eq, ih]

end WorkerPool
