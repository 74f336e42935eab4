import DecodePipeline.Proofs.Stage.Consumption
import DecodePipeline.Proofs.Stage.Discovery
import DecodePipeline.Proofs.Stage.Worker
import DecodePipeline.Run.Schedule
import Mathlib.Data.List.Basic
import Mathlib.Logic.Relation

/-!
What can happen to a run, and what can become of it. The tasks step in any order, time
passes whether or not a task could go on, and the run may be cancelled from outside at any
time. Every step of a launched run is a step of discovery, of one worker, of consumption or
of the supervisor; the facts about runs are proved case by case along these and hold of all
that a run can become.
-/

namespace DecodePipeline

namespace Worker

/-- A worker that is ended from outside; one that has ended stays as it is. -/
def aborted (x : Worker) : Worker :=
  match x.point with
  | .ended _ => x
  | _ => x.cutOff .aborted

theorem abort_eq (x : Worker) (hub : Hub) :
    x.abort hub = (if x.isCalling then hub.endCall else hub, x.aborted) := by
  rw [abort, aborted, isCalling]
  cases point : x.point with
  | idle => rfl
  | busy a => cases a <;> rfl
  | handing set => rfl
  | ended e => rfl

end Worker

namespace Run

/-- One event of a run: a task makes a step, the run is cancelled from outside, or time
passes. -/
inductive Change (w : World) (r : Run) : Run → Prop where
  | task (a : Action) {r' : Run} : r.stepTask w a = some r' → Change w r r'
  | cancel : Change w r r.cancel
  | clock (time : Nat) : r.hub.now ≤ time → Change w r (setClock time r)

/-- A run with given settings that has just been started; its tasks do not exist yet. -/
def begin (s : Settings) : Except Fault Run := do
  let r ← make s
  r.start

/-- A started run before its tasks come into being. -/
def fresh (s : Settings) (now : Nat) (cancelled : Bool) : Run :=
  { settings := s
    hub :=
      { now, cancelled, work := { capacity := s.queueCapacity }
        artifacts := { capacity := s.queueCapacity }, slots := max 1 s.workers }
    supervisor := { phase := .launching, history := [(0, .running)] } }

theorem begin_eq {s : Settings} {r : Run} (h : begin s = .ok r) :
    s.validate = .ok () ∧ 0 < s.queueCapacity ∧ r = fresh s 0 false := by
  unfold begin make Queue.make? at h
  split at h
  · simp [bind, Except.bind] at h
  · next positive =>
      simp only [bind, Except.bind, pure, Except.pure, start, lifecycle,
        Supervisor.Phase.lifecycle, if_true] at h
      cases valid : s.validate with
      | error fault => simp [valid] at h
      | ok =>
          simp only [valid, Except.ok.injEq] at h
          exact ⟨rfl, Nat.pos_of_ne_zero positive, h.symm⟩

theorem validate_eq_ok_iff {s : Settings} :
    s.validate = .ok () ↔
      0 < s.workers ∧ 0 < s.queueCapacity ∧ 0 < s.retry.maxAttempts ∧ s.mode ≠ .poll .zero := by
  unfold Settings.validate
  split
  · next none => simp [none]
  split
  · next none => simp [none]
  split
  · next none => simp [none]
  split
  · next zero => simp [zero]
  · next workers capacity attempts interval =>
      simp only [true_iff]
      exact ⟨Nat.pos_of_ne_zero workers, Nat.pos_of_ne_zero capacity, Nat.pos_of_ne_zero attempts,
        interval⟩

theorem workers_pos_of_validate {s : Settings} (valid : s.validate = .ok ()) : 0 < s.workers :=
  (validate_eq_ok_iff.mp valid).1

/-- How the end of a task counts: the fault that it reports, and whether it
cancels the run. -/
def noted (r : Run) (fault : Option Fault) (cancels : Bool) : Run :=
  { r with
    hub := { r.hub with cancelled := r.hub.cancelled || cancels }
    supervisor := { r.supervisor with firstFault := r.supervisor.firstFault <|> fault } }

/-- The fault that the end of discovery reports. -/
def discoveryFault (cancelled : Bool) : Ending Nat → Option Fault
  | .faulted fault =>
    if cancelled ∧ (fault = .cancelled ∨ fault = .queueClosed) then none else some fault
  | .panicked => some (panicFault "discovery")
  | .returned _ | .aborted => none

/-- The fault that the end of a worker or of consumption reports. -/
def endingFault (task : String) : Ending Nat → Option Fault
  | .faulted fault => some fault
  | .panicked => some (panicFault task)
  | .returned _ | .aborted => none

theorem afterDiscovery_eq (r : Run) (e : Ending Nat) :
    r.afterDiscovery e = r.noted (discoveryFault r.hub.cancelled e) (e = .panicked) := by
  cases e with
  | returned _ | aborted => simp [afterDiscovery, discoveryFault, noted]
  | panicked => simp [afterDiscovery, discoveryFault, noted, record, cancel]
  | faulted fault =>
      simp only [afterDiscovery, discoveryFault]
      split <;> simp [noted, record]

theorem afterWorker_eq (r : Run) (e : Ending Nat) :
    r.afterWorker e =
      r.noted (endingFault "transform worker" e) (endingFault "transform worker" e).isSome := by
  cases e <;> simp [afterWorker, endingFault, noted, record, cancel]

theorem afterConsumption_eq (r : Run) (e : Ending Nat) :
    r.afterConsumption e = r.noted (endingFault "consumption" e) false := by
  cases e <;> simp [afterConsumption, endingFault, noted, record]

theorem foldl_abort (xs : List Worker) (hub : Hub) (before : List Worker) :
    xs.foldl (fun acc x => ((x.abort acc.1).1, acc.2 ++ [(x.abort acc.1).2])) (hub, before) =
      ({ hub with
          slots := hub.slots + xs.countP Worker.isCalling
          running := hub.running - xs.countP Worker.isCalling },
        before ++ xs.map Worker.aborted) := by
  induction xs generalizing hub before with
  | nil => simp
  | cons x xs ih =>
      rw [List.foldl_cons, ih]
      simp only [Worker.abort_eq, List.append_assoc, List.map_cons, List.singleton_append]
      cases calling : x.isCalling with
      | false => simp [calling]
      | true =>
          simp only [if_true, Hub.endCall, List.countP_cons, calling, Prod.mk.injEq, and_true]
          congr 1 <;> omega

/-- Workers that are ended from outside free the slots that they hold. -/
theorem abortWorkers_eq (r : Run) :
    r.abortWorkers =
      { r with
        hub :=
          { r.hub with
            slots := r.hub.slots + r.workers.countP Worker.isCalling
            running := r.hub.running - r.workers.countP Worker.isCalling }
        workers := r.workers.map Worker.aborted } := by
  have all := foldl_abort r.workers r.hub []
  rw [abortWorkers]
  simp only
  rw [all, List.nil_append]

theorem point_of_worker_ending {x : Worker} {e : Ending Nat} (h : x.ending? = some e) :
    x.point = .ended e := by
  unfold Worker.ending? at h
  split at h
  · next point => exact point.trans (congrArg _ (Option.some.inj h))
  · simp at h

/-- The worker whose end is noticed next has ended and was not noticed before. -/
theorem nextEnded_spec {joined : List Nat} {i j : Nat} {e : Ending Nat} {xs : List Worker}
    (h : nextEnded joined i xs = some (j, e)) :
    i ≤ j ∧ j ∉ joined ∧ ∃ x, xs[j - i]? = some x ∧ x.point = .ended e := by
  induction xs generalizing i with
  | nil => simp [nextEnded] at h
  | cons x xs ih =>
      have later (h : nextEnded joined (i + 1) xs = some (j, e)) :
          i ≤ j ∧ j ∉ joined ∧ ∃ y, (x :: xs)[j - i]? = some y ∧ y.point = .ended e := by
        obtain ⟨le, fresh, y, at_, ended⟩ := ih h
        refine ⟨by omega, fresh, y, ?_, ended⟩
        rw [show j - i = j - (i + 1) + 1 by omega, List.getElem?_cons_succ]
        exact at_
      unfold nextEnded at h
      split at h
      · next e' ended =>
          split at h
          · exact later h
          · next fresh =>
              simp only [Option.some.injEq, Prod.mk.injEq] at h
              obtain ⟨rfl, rfl⟩ := h
              exact ⟨Nat.le_refl i, by simpa using fresh, x, by simp, point_of_worker_ending ended⟩
      · exact later h

/-- A run whose tasks exist, with its discovery and its consumption. -/
structure Launched (r : Run) (d : Discovery) (c : Consumption) : Prop where
  discovery : r.discovery = some d
  consumption : r.consumption = some c
  lone : r.lone = none
  collector : r.collector = .done
  phase : r.supervisor.phase ≠ .idle ∧ r.supervisor.phase ≠ .launching

inductive Supervises (r : Run) (d : Discovery) (c : Consumption) :
    Run → Discovery → Consumption → Prop where
  | discoveryOver (e : Ending Nat) : r.supervisor.phase = .watching → d.point = .ended e →
      Supervises r d c
        ((r.drain .awaitingWorkers).noted (discoveryFault r.hub.cancelled e) (e = .panicked)) d c
  | interrupted : r.supervisor.phase = .watching → r.hub.cancelled →
      Supervises r d c (r.drain .awaitingDiscovery).arm d c
  | discoveryJoined (e : Ending Nat) : r.supervisor.phase = .awaitingDiscovery →
      d.point = .ended e →
      Supervises r d c
        ((r.enter .awaitingWorkers).noted (discoveryFault r.hub.cancelled e) (e = .panicked)) d c
  | discoveryExpired : r.supervisor.phase = .awaitingDiscovery →
      isDue r.hub.now r.supervisor.deadline →
      Supervises r d c (r.enter .awaitingWorkers).abortDiscovery.expire d.abort c
  | workerJoined (i : Nat) (x : Worker) (e : Ending Nat) : r.supervisor.phase = .awaitingWorkers →
      i ∉ r.supervisor.joined → r.workers[i]? = some x → x.point = .ended e →
      Supervises r d c
        ({ r with supervisor := { r.supervisor with joined := i :: r.supervisor.joined } }.noted
          (endingFault "transform worker" e) (endingFault "transform worker" e).isSome) d c
  | workersGone (limit : Option Nat) : r.supervisor.phase = .awaitingWorkers →
      r.supervisor.joined.length = r.workers.length → limit.isSome = r.supervisor.expired →
      Supervises r d c
        { r.enter (.awaitingConsumption limit) with
          hub := { r.hub with artifacts := r.hub.artifacts.close } } d c
  | workersExpired : r.supervisor.phase = .awaitingWorkers → r.supervisor.expired = false →
      isDue r.hub.now r.supervisor.deadline → Supervises r d c r.expire d c
  | armed : (r.supervisor.phase = .awaitingWorkers ∨
        ∃ limit, r.supervisor.phase = .awaitingConsumption limit) →
      r.hub.cancelled → r.supervisor.deadline = none → Supervises r d c r.arm d c
  | consumptionJoined (limit : Option Nat) (e : Ending Nat) :
      r.supervisor.phase = .awaitingConsumption limit → c.point = .ended e →
      Supervises r d c (r.noted (endingFault "consumption" e) false).stop d c
  | consumptionExpired (limit : Option Nat) : r.supervisor.phase = .awaitingConsumption limit →
      (r.supervisor.expired → c.ending? = none) →
      isDue r.hub.now (if r.supervisor.expired then limit else r.supervisor.deadline) →
      Supervises r d c r.abortConsumption.stop d c.abort

inductive Works (w : World) (r : Run) (d : Discovery) (c : Consumption) :
    Run → Discovery → Consumption → Prop where
  | discovery (hub : Hub) (d' : Discovery) : d.Moves w r.hub hub d' →
      Works w r d c { r with hub, discovery := some d' } d' c
  | worker (i : Nat) (x x' : Worker) (hub : Hub) : r.workers[i]? = some x →
      x.Moves w r.settings r.hub hub x' →
      Works w r d c { r with hub, workers := r.workers.set i x' } d c
  | consumption (hub : Hub) (c' : Consumption) : c.Moves w r.hub hub c' →
      Works w r d c { r with hub, consumption := some c' } d c'
  | supervisor {r' : Run} {d' : Discovery} {c' : Consumption} : Supervises r d c r' d' c' →
      Works w r d c r' d' c'

theorem point_of_discovery_ending {d : Discovery} {e : Ending Nat} (h : d.ending? = some e) :
    d.point = .ended e := by
  unfold Discovery.ending? at h
  split at h
  · next point => exact point.trans (congrArg _ (Option.some.inj h))
  · simp at h

theorem point_of_consumption_ending {c : Consumption} {e : Ending Nat} (h : c.ending? = some e) :
    c.point = .ended e := by
  unfold Consumption.ending? at h
  split at h
  · next point => exact point.trans (congrArg _ (Option.some.inj h))
  · simp at h

theorem Launched.supervises {r r' : Run} {d : Discovery} {c : Consumption} {signal : Signal}
    (launched : Launched r d c) (h : r.supervise signal = some r') :
    ∃ d' c', Supervises r d c r' d' c' := by
  unfold supervise at h
  split at h
  · next phase => exact absurd phase launched.phase.2
  · next phase =>
      simp only [launched.discovery, Option.bind_some, Option.map_eq_some_iff] at h
      obtain ⟨e, ended, rfl⟩ := h
      rw [afterDiscovery_eq]
      exact ⟨d, c, .discoveryOver e phase (point_of_discovery_ending ended)⟩
  · next phase =>
      split at h
      · next cancelled => cases h; exact ⟨d, c, .interrupted phase cancelled⟩
      · simp at h
  · next phase =>
      simp only [launched.discovery, Option.bind_some, Option.map_eq_some_iff] at h
      obtain ⟨e, ended, rfl⟩ := h
      rw [afterDiscovery_eq]
      exact ⟨d, c, .discoveryJoined e phase (point_of_discovery_ending ended)⟩
  · next phase =>
      split at h
      · next now => cases h; exact ⟨d.abort, c, .discoveryExpired phase now⟩
      · simp at h
  · next phase =>
      split at h
      · next unset => cases h; exact ⟨d, c, .armed (.inl phase) unset.1 unset.2⟩
      · simp at h
  · next phase =>
      simp only [Option.map_eq_some_iff] at h
      obtain ⟨⟨i, e⟩, found, rfl⟩ := h
      obtain ⟨_, unseen, x, at_, ended⟩ := nextEnded_spec found
      rw [afterWorker_eq]
      exact ⟨d, c, .workerJoined i x e phase unseen at_ ended⟩
  · next phase =>
      split at h
      · next all =>
          cases h
          refine ⟨d, c, .workersGone _ phase all ?_⟩
          cases r.supervisor.expired <;> rfl
      · simp at h
  · next phase =>
      split at h
      · next now =>
          cases h
          simp only [Bool.and_eq_true, Bool.not_eq_true'] at now
          exact ⟨d, c, .workersExpired phase now.1 now.2⟩
      · simp at h
  · next limit phase =>
      split at h
      · next unset => cases h; exact ⟨d, c, .armed (.inr ⟨limit, phase⟩) unset.1 unset.2⟩
      · simp at h
  · next limit phase =>
      simp only [launched.consumption, Option.bind_some, Option.map_eq_some_iff] at h
      obtain ⟨e, ended, rfl⟩ := h
      rw [afterConsumption_eq]
      exact ⟨d, c, .consumptionJoined limit e phase (point_of_consumption_ending ended)⟩
  · next limit phase =>
      simp only [launched.consumption, Option.bind_some, Option.ite_none_right_eq_some,
        Bool.and_eq_true, Bool.not_eq_true', Bool.and_eq_false_iff, Option.isSome_eq_false_iff,
        Option.isNone_iff_eq_none, Option.some.injEq] at h
      obtain ⟨⟨unnoticed, now⟩, rfl⟩ := h
      refine ⟨d, c.abort, .consumptionExpired limit phase ?_ now⟩
      intro expired
      exact unnoticed.resolve_left (by simp [expired])
  · simp at h

theorem Works.launched {w : World} {r r' : Run} {d d' : Discovery} {c c' : Consumption}
    (launched : Launched r d c) (h : Works w r d c r' d' c') : Launched r' d' c' := by
  cases h with
  | discovery => exact { launched with discovery := rfl }
  | worker => exact { launched with }
  | consumption => exact { launched with consumption := rfl }
  | supervisor h =>
      cases h with
      | discoveryOver | interrupted | discoveryJoined | workersGone | consumptionJoined =>
          exact { launched with phase := by simp [noted, drain, enter, arm, stop] }
      | workerJoined | armed => exact { launched with }
      | discoveryExpired =>
          rw [expire, abortWorkers_eq]
          exact
            { launched with
              discovery := by simp [abortDiscovery, enter, launched.discovery]
              phase := by simp [abortDiscovery, enter] }
      | workersExpired => rw [expire, abortWorkers_eq]; exact { launched with }
      | consumptionExpired =>
          exact
            { launched with
              consumption := by simp [stop, enter, abortConsumption, launched.consumption]
              phase := by simp [stop, enter] }

/-- The same by actions: whose action it is that works. -/
inductive Acts (w : World) (r : Run) (d : Discovery) (c : Consumption) :
    Action → Run → Discovery → Consumption → Prop where
  | discovery (hub : Hub) (d' : Discovery) : d.Moves w r.hub hub d' →
      Acts w r d c .discovery { r with hub, discovery := some d' } d' c
  | worker (i : Nat) (x x' : Worker) (hub : Hub) : r.workers[i]? = some x →
      x.Moves w r.settings r.hub hub x' →
      Acts w r d c (.worker i) { r with hub, workers := r.workers.set i x' } d c
  | consumption (hub : Hub) (c' : Consumption) : c.Moves w r.hub hub c' →
      Acts w r d c .consumption { r with hub, consumption := some c' } d c'
  | supervisor (signal : Signal) {r' : Run} {d' : Discovery} {c' : Consumption} :
      r.supervise signal = some r' → Supervises r d c r' d' c' →
      Acts w r d c (.supervisor signal) r' d' c'

theorem Acts.works {w : World} {r r' : Run} {d d' : Discovery} {c c' : Consumption} {a : Action}
    (h : Acts w r d c a r' d' c') : Works w r d c r' d' c' := by
  cases h with
  | discovery hub d' moved => exact .discovery hub d' moved
  | worker i x x' hub at_ moved => exact .worker i x x' hub at_ moved
  | consumption hub c' moved => exact .consumption hub c' moved
  | supervisor _ _ supervises => exact .supervisor supervises

/-- A task of a launched run that makes a step is discovery, a worker, consumption or the
supervisor. -/
theorem Launched.acts {w : World} {r r' : Run} {d : Discovery} {c : Consumption} {a : Action}
    (launched : Launched r d c) (h : r.stepTask w a = some r') :
    ∃ d' c', Acts w r d c a r' d' c' := by
  cases a with
  | supervisor signal =>
      obtain ⟨d', c', supervises⟩ := launched.supervises h
      exact ⟨d', c', .supervisor signal h supervises⟩
  | discovery =>
      simp only [stepTask, stepDiscovery, launched.discovery, Option.pure_def, Option.bind_eq_bind,
        Option.bind_some, Option.bind_eq_some_iff, Option.some.injEq] at h
      obtain ⟨⟨hub, d'⟩, stepped, rfl⟩ := h
      exact ⟨d', c, .discovery hub d' (Discovery.moves_of_step stepped)⟩
  | worker i =>
      simp only [stepTask, stepWorker, Option.pure_def, Option.bind_eq_bind,
        Option.bind_eq_some_iff, Option.some.injEq] at h
      obtain ⟨x, at_, ⟨hub, x'⟩, stepped, rfl⟩ := h
      exact ⟨d, c, .worker i x x' hub at_ (Worker.moves_of_step stepped)⟩
  | consumption =>
      simp only [stepTask, stepConsumption, launched.consumption, Option.pure_def,
        Option.bind_eq_bind, Option.bind_some, Option.bind_eq_some_iff, Option.some.injEq] at h
      obtain ⟨⟨hub, c'⟩, stepped, rfl⟩ := h
      exact ⟨d, c', .consumption hub c' (Consumption.moves_of_step stepped)⟩
  | lone => simp [stepTask, stepLone, launched.lone] at h
  | collector => simp [stepTask, stepCollector, launched.collector] at h
  | cancel | tick => simp [stepTask] at h

theorem Launched.works {w : World} {r r' : Run} {d : Discovery} {c : Consumption} {a : Action}
    (launched : Launched r d c) (h : r.stepTask w a = some r') :
    ∃ d' c', Works w r d c r' d' c' := by
  obtain ⟨d', c', acts⟩ := launched.acts h
  exact ⟨d', c', acts.works⟩

theorem Launched.cancel {r : Run} {d : Discovery} {c : Consumption} (launched : Launched r d c) :
    Launched r.cancel d c :=
  { launched with }

theorem Launched.clock {r : Run} {d : Discovery} {c : Consumption} (launched : Launched r d c)
    (time : Nat) : Launched (setClock time r) d c :=
  { launched with }

def firstDiscovery (s : Settings) : Discovery := { mode := s.mode, maxItems := s.maxItems }

def firstConsumption (s : Settings) : Consumption := { expectedFrames := s.expectedFrames }

theorem launched_launch (s : Settings) (now : Nat) (cancelled : Bool) :
    Launched (fresh s now cancelled).launch (firstDiscovery s) (firstConsumption s) :=
  ⟨rfl, rfl, rfl, rfl, by simp [launch, enter]⟩

/-- Before its tasks come into being a run does nothing else. -/
theorem stepTask_fresh {w : World} {s : Settings} {now : Nat} {cancelled : Bool} {a : Action}
    {r' : Run} (h : (fresh s now cancelled).stepTask w a = some r') :
    r' = (fresh s now cancelled).launch := by
  cases a with
  | supervisor signal => cases signal <;> simp_all [stepTask, supervise, fresh]
  | discovery | worker | lone | consumption | collector | cancel | tick =>
      simp [stepTask, stepDiscovery, stepWorker, stepLone, stepConsumption, stepCollector,
        fresh] at h

/-- What holds of the tasks when they come into being and is kept by each step, by
cancellation and by the clock holds of every launched run. -/
theorem launched_induction {w : World} {s : Settings} {P : Run → Discovery → Consumption → Prop}
    (launch : ∀ now cancelled,
      P (fresh s now cancelled).launch (firstDiscovery s) (firstConsumption s))
    (works : ∀ {r r' : Run} {d d' : Discovery} {c c' : Consumption},
      P r d c → Works w r d c r' d' c' → P r' d' c')
    (cancel : ∀ {r : Run} {d : Discovery} {c : Consumption}, P r d c → P r.cancel d c)
    (clock : ∀ {r : Run} {d : Discovery} {c : Consumption} (time : Nat),
      r.hub.now ≤ time → P r d c → P (setClock time r) d c)
    {r₀ r : Run} (started : begin s = .ok r₀) (reached : Relation.ReflTransGen (Change w) r₀ r) :
    (∃ now cancelled, r = fresh s now cancelled) ∨ ∃ d c, Launched r d c ∧ P r d c := by
  induction reached with
  | refl => exact .inl ⟨0, false, (begin_eq started).2.2⟩
  | tail _ change ih =>
      obtain ⟨now, cancelled, rfl⟩ | ⟨d, c, launched, holds⟩ := ih
      · cases change with
        | task a stepped =>
            rw [stepTask_fresh stepped]
            exact .inr ⟨_, _, launched_launch s now cancelled, launch now cancelled⟩
        | cancel => exact .inl ⟨now, true, rfl⟩
        | clock time _ => exact .inl ⟨time, cancelled, rfl⟩
      · right
        cases change with
        | task a stepped =>
            obtain ⟨d', c', step⟩ := launched.works stepped
            exact ⟨d', c', step.launched launched, works holds step⟩
        | cancel => exact ⟨d, c, launched.cancel, cancel holds⟩
        | clock time later => exact ⟨d, c, launched.clock time, clock time later holds⟩

/-- All that a step of a run can be. Time passes only when no task can go on, and not past a
point that a task waits for. -/
theorem cases_of_step {w : World} {r r' : Run} {a : Action} (h : r.step w a = some r') :
    r' = r.cancel ∨
      (∃ time, r' = setClock time r ∧ r.isQuiet w ∧ r.hub.now < time ∧
        ∀ due ∈ r.dues, r.hub.now < due → time ≤ due) ∨
      r.stepTask w a = some r' := by
  cases a with
  | cancel => exact .inl (Option.some.inj h).symm
  | tick time =>
      simp only [step] at h
      obtain ⟨⟨quiet, later, before⟩, eq⟩ := Option.ite_none_right_eq_some.mp h
      exact .inr (.inl ⟨time, (Option.some.inj eq).symm, quiet, later, before⟩)
  | supervisor | discovery | worker | lone | consumption | collector => exact .inr (.inr h)

/-- Every run of the program is one of these: the program's clock moves less freely. -/
theorem reaches_of_reachable {w : World} {r₀ r : Run} (h : Reachable w r₀ r) :
    Relation.ReflTransGen (Change w) r₀ r := by
  induction h with
  | refl => exact .refl
  | step a _ stepped ih =>
      refine ih.tail ?_
      obtain rfl | ⟨time, rfl, _, later, _⟩ | task := cases_of_step stepped
      · exact .cancel
      · exact .clock time (Nat.le_of_lt later)
      · exact .task a task

/-- The run after some actions, in their order. -/
def follow (w : World) (r : Run) (actions : List Action) : Option Run := actions.foldlM (step w) r

theorem reachable_of_follow {w : World} {r r' : Run} {actions : List Action}
    (h : r.follow w actions = some r') : Reachable w r r' := by
  suffices all : ∀ r₁, Reachable w r r₁ → r₁.follow w actions = some r' → Reachable w r r' from
    all r .refl h
  clear h
  induction actions with
  | nil =>
      intro r₁ reached h
      obtain rfl : r₁ = r' := Option.some.inj h
      exact reached
  | cons a actions ih =>
      intro r₁ reached h
      obtain ⟨r₂, stepped, rest⟩ := Option.bind_eq_some_iff.mp h
      exact ih r₂ (reached.step a stepped) rest

def threeSources : List SourceEntry := [⟨"a", "a.raw"⟩, ⟨"b", "b.raw"⟩, ⟨"c", "c.raw"⟩]

/-- Collaborators that answer; a decoder call takes ten milliseconds, and may break down on
one id. -/
def slowWorld (broken : Option String) : World where
  catalog _ := ⟨some 0, .gives threeSources⟩
  decoder id _ :=
    { delay := some 10
      reply := if some id = broken then .panics else .gives ⟨[id], [id]⟩
      heeds := true }
  reset := ⟨some 0, .gives ()⟩
  accept _ _ := ⟨some 0, .gives ()⟩

/-- A run of the three sources once the catalog has been listed. -/
def listed (s : Settings) : Run :=
  { (fresh s 0 false).launch with
    hub := { (fresh s 0 false).hub with scans := [0] }
    discovery := some { firstDiscovery s with point := .publishing threeSources } }

theorem canonicalOrder_threeSources : canonicalOrder threeSources = threeSources := by
  rw [canonicalOrder, List.mergeSort_of_pairwise (by decide)]
  decide

theorem follow_scanned {w : World} (s : Settings)
    (catalog : w.catalog 0 = ⟨some 0, .gives threeSources⟩) (actions : List Action) :
    (fresh s 0 false).follow w ([.supervisor .launch, .discovery, .discovery] ++ actions) =
      (listed s).follow w actions := by
  have ordered : (firstDiscovery s).fresh threeSources = threeSources := by
    rw [Discovery.fresh, canonicalOrder_threeSources]
    rfl
  have scans : (fresh s 0 false).launch.step w .discovery = some
      { (fresh s 0 false).launch with
        hub := { (fresh s 0 false).hub with scans := [0] }
        discovery := some
          { firstDiscovery s with
            point := .listing (dueAt 0 (w.catalog 0).delay) (w.catalog 0).reply } } := rfl
  have first : (fresh s 0 false).follow w [.supervisor .launch, .discovery, .discovery] =
      some (listed s) := by
    have launches : (fresh s 0 false).step w (.supervisor .launch) =
        some (fresh s 0 false).launch := rfl
    rw [catalog] at scans
    simp only [listed]
    rw [← ordered]
    simp only [follow, List.foldlM_cons, launches, Option.bind_eq_bind, Option.bind_some, scans]
    rfl
  rw [follow, List.foldlM_append]
  rw [follow] at first
  rw [first]
  rfl

theorem follow_listed (s : Settings) (broken : Option String) (actions : List Action) :
    (fresh s 0 false).follow (slowWorld broken)
        ([.supervisor .launch, .discovery, .discovery] ++ actions) =
      (listed s).follow (slowWorld broken) actions :=
  follow_scanned s rfl actions

end Run

end DecodePipeline
