import DecodePipeline.Proofs.Run.Deadlock

/-!
How long a cancelled run may last. The supervisor sets its deadline at the moment of the
cancellation, whatever phase it is in; when the deadline passes the remaining waits are over
at once, but for one further allowance for consumption. Time does not pass a point at which
the supervisor can go on.
-/

namespace DecodePipeline.Run

variable {w : World} {s : Settings} {r r' : Run} {d d' : Discovery} {c c' : Consumption}

/-- How far the supervisor of a run that was cancelled at `t` has come, and that the time for
it has not passed. The shutdown timeout is `g`. -/
inductive Punctual (g t : Nat) (r : Run) : Prop
  | prompt : r.supervisor.deadline = none → r.hub.now ≤ t → Punctual g t r
  | waiting (due : Nat) : r.supervisor.phase ≠ .watching → r.supervisor.deadline = some due →
      r.supervisor.expired = false → due ≤ t + g → r.hub.now ≤ due → Punctual g t r
  | aborting : r.supervisor.phase = .awaitingWorkers → r.supervisor.expired →
      r.hub.now ≤ t + g → Punctual g t r
  | finishing (limit : Nat) : r.supervisor.phase = .awaitingConsumption (some limit) →
      r.supervisor.expired → limit ≤ t + 2 * g → r.hub.now ≤ limit → Punctual g t r
  | stopped : r.supervisor.phase = .stopped → Punctual g t r

theorem Punctual.congr {g t : Nat} (punctual : Punctual g t r)
    (phase : r'.supervisor.phase = r.supervisor.phase)
    (deadline : r'.supervisor.deadline = r.supervisor.deadline)
    (expired : r'.supervisor.expired = r.supervisor.expired)
    (now : r'.hub.now = r.hub.now) : Punctual g t r' := by
  cases punctual with
  | prompt unset early => exact .prompt (deadline.trans unset) (now ▸ early)
  | waiting due past set live bound early =>
      exact .waiting due (phase ▸ past) (deadline.trans set) (expired.trans live) bound
        (now ▸ early)
  | aborting at_ passed early => exact .aborting (phase.trans at_) (expired ▸ passed) (now ▸ early)
  | finishing limit at_ passed bound early =>
      exact .finishing limit (phase.trans at_) (expired ▸ passed) bound (now ▸ early)
  | stopped at_ => exact .stopped (phase.trans at_)

theorem InOrder.unexpired (order : InOrder r d c) (unset : r.supervisor.deadline = none) :
    r.supervisor.expired = false := by
  apply Bool.eq_false_iff.mpr
  intro expired
  have set := order.expired expired
  rw [unset] at set
  cases set

namespace Punctual

variable {g t : Nat}

theorem unset_of_watching (punctual : Punctual g t r) (phase : r.supervisor.phase = .watching) :
    r.supervisor.deadline = none := by
  cases punctual with
  | prompt unset => exact unset
  | waiting _ past => exact absurd phase past
  | aborting at_ | finishing _ at_ | stopped at_ =>
      rw [phase] at at_
      cases at_

/-- The deadline passes no sooner than the discovery task is joined. -/
theorem unexpired (punctual : Punctual g t r) (order : InOrder r d c)
    (phase : r.supervisor.phase.pastDiscovery = false) : r.supervisor.expired = false := by
  cases punctual with
  | prompt unset => exact order.unexpired unset
  | waiting _ _ _ live => exact live
  | aborting at_ | finishing _ at_ | stopped at_ => simp [at_] at phase

/-- A supervisor whose deadline has not passed has set none yet, or waits for it. -/
theorem cases_of_live (punctual : Punctual g t r) (live : r.supervisor.expired = false)
    (running : r.supervisor.phase ≠ .stopped) :
    r.supervisor.deadline = none ∧ r.hub.now ≤ t ∨
      ∃ due, r.supervisor.deadline = some due ∧ due ≤ t + g ∧ r.hub.now ≤ due := by
  cases punctual with
  | prompt unset early => exact .inl ⟨unset, early⟩
  | waiting due _ set _ bound early => exact .inr ⟨due, set, bound, early⟩
  | aborting _ passed | finishing _ _ passed => simp [live] at passed
  | stopped phase => exact absurd phase running

/-- The supervisor goes on to another wait, and its deadline stays as it is. -/
theorem proceed (punctual : Punctual g t r) (live : r.supervisor.expired = false)
    (running : r.supervisor.phase ≠ .stopped) (past : r'.supervisor.phase ≠ .watching)
    (deadline : r'.supervisor.deadline = r.supervisor.deadline)
    (expired : r'.supervisor.expired = r.supervisor.expired)
    (now : r'.hub.now = r.hub.now) : Punctual g t r' := by
  obtain ⟨unset, early⟩ | ⟨due, set, bound, early⟩ := punctual.cases_of_live live running
  · exact .prompt (deadline.trans unset) (now ▸ early)
  · exact .waiting due past (deadline.trans set) (expired.trans live) bound (now ▸ early)

/-- The deadline is set before any time has passed since the cancellation. -/
theorem arm (punctual : Punctual g t r) (live : r.supervisor.expired = false)
    (running : r.supervisor.phase ≠ .stopped) (unset : r.supervisor.deadline = none)
    (past : r'.supervisor.phase ≠ .watching) (set : r'.supervisor.deadline = some (r.hub.now + g))
    (expired : r'.supervisor.expired = r.supervisor.expired)
    (now : r'.hub.now = r.hub.now) : Punctual g t r' := by
  obtain ⟨_, early⟩ | ⟨due, armed, _⟩ := punctual.cases_of_live live running
  · exact .waiting _ past set (expired.trans live) (Nat.add_le_add_right early g)
      (now ▸ Nat.le_add_right _ _)
  · rw [unset] at armed
    cases armed

/-- When the deadline passes, all workers are ended. -/
theorem expire (punctual : Punctual g t r) (live : r.supervisor.expired = false)
    (running : r.supervisor.phase ≠ .stopped) (passed : isDue r.hub.now r.supervisor.deadline)
    (phase : r'.supervisor.phase = .awaitingWorkers) (expired : r'.supervisor.expired)
    (now : r'.hub.now = r.hub.now) : Punctual g t r' := by
  obtain ⟨unset, _⟩ | ⟨due, _, bound, early⟩ := punctual.cases_of_live live running
  · simp [unset, isDue] at passed
  · exact .aborting phase expired (now ▸ Nat.le_trans early bound)

/-- With the workers gone, consumption is waited for: until the deadline, or for one allowance
more if that has passed. -/
theorem await (punctual : Punctual g t r) (order : InOrder r d c)
    (phase : r.supervisor.phase = .awaitingWorkers) {limit : Option Nat}
    (allowed : limit = if r.supervisor.expired then some (r.hub.now + g) else none)
    (phase' : r'.supervisor.phase = .awaitingConsumption limit)
    (deadline : r'.supervisor.deadline = r.supervisor.deadline)
    (expired : r'.supervisor.expired = r.supervisor.expired)
    (now : r'.hub.now = r.hub.now) : Punctual g t r' := by
  cases passed : r.supervisor.expired with
  | false => exact punctual.proceed passed (by simp [phase]) (by simp [phase']) deadline expired now
  | true =>
      rw [passed, if_pos rfl] at allowed
      subst allowed
      cases punctual with
      | prompt unset => simp [order.unexpired unset] at passed
      | waiting _ _ _ live => simp [live] at passed
      | aborting _ _ early =>
          exact .finishing _ phase' (expired.trans passed) (by omega) (now ▸ Nat.le_add_right _ _)
      | finishing _ at_ | stopped at_ =>
          rw [phase] at at_
          cases at_

end Punctual

/-- The last allowance begins when the workers are gone, if the deadline has passed by then. -/
theorem limit_of_supervise {signal : Signal} (h : r.supervise signal = some r')
    {limit : Option Nat} (phase : r'.supervisor.phase = .awaitingConsumption limit)
    (before : r.supervisor.phase = .awaitingWorkers) :
    limit = if r.supervisor.expired then some (r.hub.now + r.settings.shutdownTimeout.millis)
      else none := by
  unfold supervise at h
  rw [before] at h
  cases signal with
  | workersGone =>
      obtain ⟨_, eq⟩ := Option.ite_none_right_eq_some.mp h
      cases eq
      simpa using phase.symm
  | arm | deadline =>
      obtain ⟨_, eq⟩ := Option.ite_none_right_eq_some.mp h
      cases eq
      simp [expire, abortWorkers_eq, before] at phase
  | workerEnded =>
      simp only [Option.map_eq_some_iff] at h
      obtain ⟨_, _, rfl⟩ := h
      simp [afterWorker_eq, before] at phase
  | launch | discoveryEnded | cancellation | consumptionEnded => cases h

/-- The supervisor keeps to its time. -/
theorem Punctual.supervise {t : Nat} {signal : Signal}
    (punctual : Punctual r.settings.shutdownTimeout.millis t r) (launched : Launched r d c)
    (order : InOrder r d c) (h : r.supervise signal = some r') :
    Punctual r.settings.shutdownTimeout.millis t r' := by
  obtain ⟨d', c', supervises⟩ := launched.supervises h
  cases supervises with
  | discoveryOver e phase =>
      have live := punctual.unexpired order (by simp [phase])
      exact punctual.proceed live (by simp [phase]) (by simp) rfl rfl rfl
  | interrupted phase =>
      have live := punctual.unexpired order (by simp [phase])
      exact punctual.arm live (by simp [phase]) (punctual.unset_of_watching phase) (by simp)
        rfl rfl rfl
  | discoveryJoined e phase =>
      have live := punctual.unexpired order (by simp [phase])
      exact punctual.proceed live (by simp [phase]) (by simp) rfl rfl rfl
  | discoveryExpired phase passed =>
      have live := punctual.unexpired order (by simp [phase])
      rw [Run.expire, abortWorkers_eq]
      exact punctual.expire live (by simp [phase]) passed rfl rfl rfl
  | workerJoined => exact punctual.congr rfl rfl rfl rfl
  | workersGone limit phase =>
      exact punctual.await order phase (limit_of_supervise h rfl phase) rfl rfl rfl rfl
  | workersExpired phase live passed =>
      rw [Run.expire, abortWorkers_eq]
      exact punctual.expire live (by simp [phase]) passed phase rfl rfl
  | armed phase _ unset =>
      have waits : r.supervisor.phase ≠ .watching ∧ r.supervisor.phase ≠ .stopped := by
        obtain phase | ⟨limit, phase⟩ := phase <;> simp [phase]
      exact punctual.arm (order.unexpired unset) waits.2 unset waits.1 rfl rfl rfl
  | consumptionJoined | consumptionExpired => exact .stopped rfl

/-- Time stands still while the supervisor can go on, and stops where it will. -/
theorem Punctual.tick {g t time : Nat} (punctual : Punctual g t r) (order : InOrder r d c)
    (launched : Launched r d c) (cancelled : r.hub.cancelled) (quiet : r.isQuiet w)
    (before : ∀ due ∈ r.dues, r.hub.now < due → time ≤ due) :
    Punctual g t (setClock time r) := by
  have still := stepTask_of_isQuiet quiet
  have watching : r.supervisor.phase ≠ .watching := by
    intro phase
    have held := still (.supervisor .cancellation)
    simp [stepTask, Run.supervise, phase, cancelled] at held
  have held := still (.supervisor .deadline)
  have awaits {due : Nat} (awaited : r.supervisorDue = some due) (later : ¬due ≤ r.hub.now) :
      time ≤ due := by
    exact before due (by simp [dues, awaited]) (Nat.lt_of_not_le later)
  cases punctual with
  | prompt unset early =>
      have unarmed := still (.supervisor .arm)
      cases phase : r.supervisor.phase with
      | idle => exact absurd phase launched.phase.1
      | launching => exact absurd phase launched.phase.2
      | watching => exact absurd phase watching
      | awaitingDiscovery =>
          have set := order.interrupted phase
          rw [unset] at set
          cases set
      | awaitingWorkers | awaitingConsumption limit =>
          simp [stepTask, Run.supervise, phase, cancelled, unset] at unarmed
      | stopped => exact .stopped phase
  | waiting due _ set unexpired bound early =>
      cases phase : r.supervisor.phase with
      | idle => exact absurd phase launched.phase.1
      | launching => exact absurd phase launched.phase.2
      | watching => exact absurd phase watching
      | awaitingDiscovery | awaitingWorkers | awaitingConsumption limit =>
          have later : ¬due ≤ r.hub.now := by
            simpa [stepTask, Run.supervise, phase, set, unexpired, isDue] using held
          refine .waiting due ?_ set unexpired bound (awaits ?_ later)
          · simp [setClock, phase]
          · simp [supervisorDue, phase, set, unexpired]
      | stopped => exact .stopped phase
  | aborting phase expired early =>
      obtain ⟨x, mem, works⟩ := order.somebody_works still phase
      exact absurd (order.workers_over (.inl expired) x mem) works
  | finishing limit phase expired bound early =>
      have unended : r.consumption.bind Consumption.ending? = none := by
        have unnoticed := still (.supervisor .consumptionEnded)
        simpa [stepTask, Run.supervise, phase] using unnoticed
      have later : ¬limit ≤ r.hub.now := by
        simpa [stepTask, Run.supervise, phase, expired, unended, isDue] using held
      refine .finishing limit phase expired bound (awaits ?_ later)
      simp [supervisorDue, phase, expired]
  | stopped phase => exact .stopped phase

/-- A run that was cancelled at `t`, from then on. -/
def Closing (s : Settings) (t : Nat) (r : Run) : Prop :=
  (∃ now ≤ t, r = fresh s now true) ∨
    ∃ d c, Coherent s r d c ∧ r.hub.cancelled ∧ Punctual s.shutdownTimeout.millis t r

theorem supervisor_of_stepTask {a : Action} (stepped : r.stepTask w a = some r') :
    (∃ signal, a = .supervisor signal) ∨ r'.supervisor = r.supervisor := by
  cases a with
  | supervisor signal => exact .inl ⟨signal, rfl⟩
  | discovery | worker | lone | consumption =>
      simp only [stepTask, stepDiscovery, stepWorker, stepLone, stepConsumption, Option.pure_def,
        Option.bind_eq_bind, Option.bind_eq_some_iff, Option.some.injEq] at stepped
      obtain ⟨_, _, _, _, rfl⟩ := stepped
      exact .inr rfl
  | collector =>
      simp only [stepTask, stepCollector] at stepped
      split at stepped <;> (try split at stepped) <;> cases stepped <;> exact .inr rfl
  | cancel | tick => cases stepped

theorem Punctual.task {t : Nat} {a : Action}
    (punctual : Punctual r.settings.shutdownTimeout.millis t r) (launched : Launched r d c)
    (order : InOrder r d c) (stepped : r.stepTask w a = some r') :
    Punctual r.settings.shutdownTimeout.millis t r' := by
  obtain ⟨signal, rfl⟩ | same := supervisor_of_stepTask stepped
  · exact punctual.supervise launched order stepped
  · obtain ⟨d', c', h⟩ := launched.works stepped
    exact punctual.congr (congrArg _ same) (congrArg _ same) (congrArg _ same) h.now

theorem Closing.step {t : Nat} {a : Action} (closing : Closing s t r)
    (stepped : r.step w a = some r') : Closing s t r' := by
  obtain ⟨now, early, rfl⟩ | ⟨d, c, coherent, cancelled, punctual⟩ := closing
  · obtain rfl | ⟨time, rfl, quiet, _⟩ | task := cases_of_step stepped
    · exact .inl ⟨now, early, rfl⟩
    · -- the tasks come into being before time passes
      have held := stepTask_of_isQuiet quiet (.supervisor .launch)
      cases held
    · rw [stepTask_fresh task]
      exact .inr ⟨_, _, coherent_launch s now true, rfl, .prompt rfl early⟩
  · right
    obtain rfl | ⟨time, rfl, quiet, _, before⟩ | task := cases_of_step stepped
    · exact ⟨d, c, coherent.cancel, rfl, punctual.congr rfl rfl rfl rfl⟩
    · exact ⟨d, c, coherent.clock time, cancelled,
        punctual.tick coherent.order coherent.launched cancelled quiet before⟩
    · obtain ⟨d', c', h⟩ := coherent.launched.works task
      refine ⟨d', c', coherent.works h, h.cancelled cancelled, ?_⟩
      rw [← coherent.fits.settings] at punctual ⊢
      exact punctual.task coherent.launched coherent.order task

/-- A run that is not cancelled has no deadline, and a step sets none. -/
theorem Works.undue (h : Works w r d c r' d' c') (order : InOrder r d c)
    (live : r.hub.cancelled = false) : r'.supervisor.deadline = none := by
  have unset := order.undue live
  cases h with
  | discovery | worker | consumption => exact unset
  | supervisor supervises =>
      cases supervises with
      | discoveryOver | discoveryJoined | workerJoined | workersGone | consumptionJoined
      | consumptionExpired => exact unset
      | interrupted _ cancelled | armed _ cancelled => simp [live] at cancelled
      | discoveryExpired _ now | workersExpired _ _ now => simp [unset, isDue] at now

/-- The step that cancels a run finds no deadline and sets none. -/
theorem closing_of_cancelled {r₀ : Run} {a : Action} (started : begin s = .ok r₀)
    (reached : Reachable w r₀ r) (live : r.hub.cancelled = false)
    (stepped : r.step w a = some r') (cancelled : r'.hub.cancelled) :
    Closing s r'.hub.now r' := by
  obtain ⟨now, token, rfl⟩ | ⟨d, c, coherent⟩ :=
    coherent_of_reached started (reaches_of_reachable reached)
  · obtain rfl : token = false := live
    obtain rfl | ⟨time, rfl, _⟩ | task := cases_of_step stepped
    · exact .inl ⟨now, Nat.le_refl _, rfl⟩
    · cases cancelled
    · rw [stepTask_fresh task] at cancelled
      cases cancelled
  · obtain rfl | ⟨time, rfl, _⟩ | task := cases_of_step stepped
    · exact .inr ⟨d, c, coherent.cancel, rfl, .prompt (coherent.order.undue live) (Nat.le_refl _)⟩
    · simp [setClock, live] at cancelled
    · obtain ⟨d', c', h⟩ := coherent.launched.works task
      exact .inr ⟨d', c', coherent.works h, cancelled,
        .prompt (h.undue coherent.order live) (Nat.le_refl _)⟩

theorem Closing.reached {t : Nat} {r₀ : Run} (closing : Closing s t r₀)
    (reached : Reachable w r₀ r) : Closing s t r := by
  induction reached with
  | refl => exact closing
  | step a _ stepped ih => exact ih.step stepped

/-- A run whose token was cancelled before its start is one that is cancelled at its start. -/
theorem start_of_cancelled (s : Settings) :
    (do (← make s).cancel.start) = (begin s).map Run.cancel := by
  unfold begin make Queue.make?
  split
  · rfl
  · simp only [bind, Except.bind, pure, Except.pure, start, cancel]
    cases s.validate <;> rfl

/-- The moment at which the token of a run is cancelled: the start of the run, if that was done
before, and else the step that does it, from outside or by the supervisor. -/
inductive FirstCancelled (w : World) (s : Settings) : Run → Prop
  | before {r : Run} : (do (← make s).cancel.start) = .ok r → FirstCancelled w s r
  | during {r₀ r r' : Run} {a : Action} : begin s = .ok r₀ → Reachable w r₀ r →
      r.hub.cancelled = false → r.step w a = some r' → r'.hub.cancelled → FirstCancelled w s r'

theorem FirstCancelled.closing (first : FirstCancelled w s r) : Closing s r.hub.now r := by
  cases first with
  | before started =>
      rw [start_of_cancelled] at started
      cases begun : begin s with
      | error fault =>
          rw [begun] at started
          cases started
      | ok r₀ =>
          rw [begun] at started
          cases started
          obtain ⟨_, _, rfl⟩ := begin_eq begun
          exact .inl ⟨0, Nat.le_refl _, rfl⟩
  | during started reached live stepped cancelled =>
      exact closing_of_cancelled started reached live stepped cancelled

/-- Whatever its collaborators do, a run that is cancelled has stopped when twice the shutdown
timeout is over, however the cancellation came about and in whatever phase. -/
theorem stops_within_twice_timeout {r₁ : Run} (first : FirstCancelled w s r₁)
    (after : Reachable w r₁ r) :
    r.lifecycle = .stopped ∨ r.hub.now ≤ r₁.hub.now + 2 * s.shutdownTimeout.millis := by
  obtain ⟨now, early, rfl⟩ | ⟨d, c, _, _, punctual⟩ := first.closing.reached after
  · exact .inr (Nat.le_trans early (Nat.le_add_right _ _))
  · cases punctual with
    | prompt _ early => exact .inr (by omega)
    | waiting due _ _ _ bound early => exact .inr (by omega)
    | aborting _ _ early => exact .inr (by omega)
    | finishing limit _ _ bound early => exact .inr (by omega)
    | stopped phase => exact .inl (lifecycle_stopped.mpr phase)

/-- Collaborators that hang and heed nothing, but for the decoder on the first item. -/
def hungWorld : World where
  catalog _ := ⟨some 0, .gives threeSources⟩
  decoder id _ :=
    { delay := if id = "a" then some 10 else none
      reply := .gives ⟨[Frame.name id 0], [Frame.name id 0]⟩
      heeds := false }
  reset := ⟨none, .gives ()⟩
  accept _ _ := ⟨some 0, .gives ()⟩

/-- Both allowances are used up: decoder and renderer hang. -/
theorem stops_within_twice_timeout_hung :
    ∃ r₁ r₂ r, Reachable hungWorld (fresh { shutdownTimeout := .ofMillis 100 } 0 false) r₁ ∧
      r₁.hub.cancelled = false ∧ r₁.step hungWorld .cancel = some r₂ ∧ Reachable hungWorld r₂ r ∧
      r.lifecycle = .draining ∧ r.hub.now = r₂.hub.now + 200 ∧
      (r.lifecycle = .stopped ∨
        r.hub.now ≤ r₂.hub.now + 2 * (Span.ofMillis 100).millis) := by
  let s : Settings := { shutdownTimeout := .ofMillis 100 }
  let hangs : List Action :=
    [.discovery, .discovery, .discovery, .discovery, .supervisor .discoveryEnded, .worker 0,
      .worker 0, .tick 10, .worker 0, .worker 0, .consumption, .consumption, .worker 0, .worker 0]
  let drains : List Action :=
    [.supervisor .arm, .tick 110, .supervisor .deadline, .supervisor .workerEnded,
      .supervisor .workersGone, .tick 210]
  have arrives : ((listed s).follow hungWorld hangs).any (fun r =>
      !r.hub.cancelled && r.hub.now = 10 && (r.cancel.follow hungWorld drains).any
        fun r => r.lifecycle = .draining && r.hub.now = 210) := by decide
  obtain ⟨r₁, arrives, holds⟩ := (Option.any_eq_true _ _).mp arrives
  simp only [Bool.and_eq_true, Bool.not_eq_true', decide_eq_true_eq] at holds
  obtain ⟨⟨live, early⟩, ends⟩ := holds
  obtain ⟨r, ends, holds⟩ := (Option.any_eq_true _ _).mp ends
  simp only [Bool.and_eq_true, decide_eq_true_eq] at holds
  obtain ⟨draining, late⟩ := holds
  have before := reachable_of_follow ((follow_scanned s rfl hangs).trans arrives)
  have after := reachable_of_follow ends
  refine ⟨r₁, r₁.cancel, r, before, live, rfl, after, draining, ?_, ?_⟩
  · rw [late]
    exact (congrArg (· + 200) early).symm
  · exact stops_within_twice_timeout (s := s) (.during rfl before live (a := .cancel) rfl rfl) after

end DecodePipeline.Run
