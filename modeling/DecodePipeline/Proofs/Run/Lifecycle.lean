import DecodePipeline.Proofs.Run.Course
import DecodePipeline.Proofs.Run.Order
import Mathlib.Data.List.Chain

/-!
A run that anybody may start, any number of times and at once. A call that starts it checks the
settings, claims the run, and only then lets its tasks come into being; other calls and the run
itself may go on in between. One call gets the run, whatever the others do, and from then on the
run is led from one state to the next.
-/

namespace DecodePipeline

namespace Lifecycle

/-- The state that comes after this one. -/
def next? : Lifecycle → Option Lifecycle
  | idle => some running
  | running => some draining
  | draining => some stopped
  | stopped => none

/-- The states after the first, up to this one. -/
def upTo : Lifecycle → List Lifecycle
  | idle => []
  | running => [running]
  | draining => [running, draining]
  | stopped => [running, draining, stopped]

/-- What is seen next: the same state, or the one that comes after it. -/
def Leads (before after : Lifecycle) : Prop := after = before ∨ before.next? = some after

theorem upTo_of_next {before after : Lifecycle} (next : before.next? = some after) :
    after ≠ before ∧ after.upTo = before.upTo ++ [after] := by
  cases before with
  | idle | running | draining => cases next; exact ⟨by decide, rfl⟩
  | stopped => cases next

end Lifecycle

/-- What a call checks before it claims the run: the settings, and that its queues can be made. -/
def Settings.vet (s : Settings) : Except Fault Unit := do
  s.validate
  let _work : Queue WorkItem ← Queue.make? s.queueCapacity
  let _artifacts : Queue ArtifactSet ← Queue.make? s.queueCapacity
  return ()

/-- A call that starts a run, by what it has yet to do. -/
inductive StartCall where
  | checking
  | claiming
  | spawning
  | refusing
  | ended (result : Except Fault Unit)

namespace StartCall

/-- The call has got the run. -/
def hasRun : StartCall → Bool
  | spawning | ended (.ok _) => true
  | checking | claiming | refusing | ended (.error _) => false

/-- The call has the run and its tasks do not exist yet. -/
def isSpawning : StartCall → Bool
  | spawning => true
  | checking | claiming | refusing | ended _ => false

/-- The call has found the settings good. -/
def isAdmitted : StartCall → Bool
  | claiming | spawning | refusing | ended (.ok _) => true
  | checking | ended (.error _) => false

end StartCall

namespace Run

variable {w : World} {s : Settings} {r r' : Run} {d d' : Discovery} {c c' : Consumption}

/-! ## The states of a run that has been started -/

theorem Supervises.lifecycle (h : Supervises r d c r' d' c') :
    r.lifecycle.Leads r'.lifecycle := by
  cases h with
  | discoveryOver _ phase | interrupted phase =>
      exact .inr (by simp [Run.lifecycle, phase, Supervisor.Phase.lifecycle, Lifecycle.next?])
  | discoveryJoined _ phase | workersGone _ phase =>
      exact .inl (by simp [Run.lifecycle, phase, Supervisor.Phase.lifecycle])
  | workerJoined | armed => exact .inl rfl
  | discoveryExpired phase =>
      rw [expire, abortWorkers_eq]
      exact .inl (by
        simp [Run.lifecycle, phase, Supervisor.Phase.lifecycle, abortDiscovery, enter])
  | workersExpired => rw [expire, abortWorkers_eq]; exact .inl rfl
  | consumptionJoined _ _ phase | consumptionExpired _ phase =>
      exact .inr (by simp [Run.lifecycle, phase, Supervisor.Phase.lifecycle, Lifecycle.next?])

theorem lifecycle_idle : r.lifecycle = .idle ↔ r.supervisor.phase = .idle := by
  simp only [Run.lifecycle]
  cases r.supervisor.phase <;> simp [Supervisor.Phase.lifecycle]

theorem enter_same (r : Run) : r.enter r.supervisor.phase = r := by
  simp [enter, Run.lifecycle]

/-- The supervisor tells of a state when it enters it, and of nothing else. -/
theorem Supervises.history (h : Supervises r d c r' d' c') :
    r'.supervisor.history = (r.enter r'.supervisor.phase).supervisor.history := by
  cases h with
  | discoveryOver | interrupted | discoveryJoined | workersGone | consumptionJoined
  | consumptionExpired => rfl
  | workerJoined | armed => exact congrArg (·.supervisor.history) r.enter_same.symm
  | discoveryExpired => rw [expire, abortWorkers_eq]; rfl
  | workersExpired =>
      rw [expire, abortWorkers_eq]
      exact congrArg (·.supervisor.history) r.enter_same.symm

/-- What a run has told of its states is all of them up to the present one, in their order. -/
def Told (r : Run) : Prop := r.supervisor.history.map (·.2) = r.lifecycle.upTo

theorem Told.enter (told : r.Told) {phase : Supervisor.Phase}
    (leads : r.lifecycle.Leads phase.lifecycle) : (r.enter phase).Told := by
  unfold Told at told ⊢
  obtain same | next := leads
  · rw [← same] at told
    simpa [Run.enter, Run.lifecycle, same] using told
  · obtain ⟨other, upTo⟩ := Lifecycle.upTo_of_next next
    simp only [Run.enter, if_neg other, List.map_append, told]
    exact upTo.symm

theorem Told.works (told : r.Told) (h : Works w r d c r' d' c') : r'.Told := by
  cases h with
  | discovery | worker | consumption => exact told
  | supervisor supervises =>
      have entered : (r.enter r'.supervisor.phase).Told := told.enter supervises.lifecycle
      unfold Told at entered ⊢
      rw [supervises.history]
      exact entered

/-- What holds of the states in a run that has been started, whether its tasks exist or not. -/
structure Ordered (r : Run) : Prop where
  started : r.lifecycle ≠ .idle
  told : r.Told
  drained : r.lifecycle ≠ .running → r.hub.work.closed
  stopped : r.lifecycle = .stopped → r.hub.artifacts.closed ∧ ∀ x ∈ r.workers, x.Over

theorem ordered_fresh (s : Settings) (now : Nat) (cancelled : Bool) :
    (fresh s now cancelled).Ordered where
  started := by simp [Run.lifecycle, fresh, Supervisor.Phase.lifecycle]
  told := rfl
  drained draining := absurd rfl draining
  stopped stopped := by cases stopped

theorem Coherent.ordered (coherent : Coherent s r d c) (told : r.Told) : r.Ordered where
  started idle := coherent.launched.phase.1 (lifecycle_idle.mp idle)
  told := told
  drained draining := coherent.order.work_closed fun watching => draining (by
    simp [Run.lifecycle, watching, Supervisor.Phase.lifecycle])
  stopped stopped := by
    have past : r.supervisor.phase.pastWorkers := by rw [lifecycle_stopped.mp stopped]; rfl
    exact ⟨coherent.order.artifacts_closed.trans past, coherent.order.workers_over (.inr past)⟩

theorem stages_of_reached {r₀ : Run} (started : begin s = .ok r₀)
    (reached : Relation.ReflTransGen (Change w) r₀ r) :
    (∃ now cancelled, r = fresh s now cancelled) ∨ ∃ d c, Coherent s r d c ∧ r.Told := by
  have invariant := launched_induction (w := w) (P := fun r d c => Coherent s r d c ∧ r.Told)
    (fun now cancelled => ⟨coherent_launch s now cancelled, rfl⟩)
    (fun holds works => ⟨holds.1.works works, holds.2.works works⟩)
    (fun holds => ⟨holds.1.cancel, holds.2⟩)
    (fun time _ holds => ⟨holds.1.clock time, holds.2⟩) started reached
  exact invariant.imp_right fun ⟨d, c, _, holds⟩ => ⟨d, c, holds⟩

theorem ordered_of_reached {r₀ : Run} (started : begin s = .ok r₀)
    (reached : Relation.ReflTransGen (Change w) r₀ r) : r.Ordered := by
  obtain ⟨now, cancelled, rfl⟩ | ⟨d, c, coherent, told⟩ := stages_of_reached started reached
  · exact ordered_fresh s now cancelled
  · exact coherent.ordered told

/-- No event lets a run that has been started go back or skip a state. -/
theorem leads_of_reached {r₀ : Run} (started : begin s = .ok r₀)
    (reached : Relation.ReflTransGen (Change w) r₀ r) (change : Change w r r') :
    r.lifecycle.Leads r'.lifecycle := by
  cases change with
  | cancel | clock => exact .inl rfl
  | task a stepped =>
      obtain ⟨now, cancelled, rfl⟩ | ⟨d, c, coherent, _⟩ := stages_of_reached started reached
      · rw [stepTask_fresh stepped]
        exact .inl rfl
      · obtain ⟨d', c', works⟩ := coherent.launched.works stepped
        cases works with
        | discovery | worker | consumption => exact .inl rfl
        | supervisor supervises => exact supervises.lifecycle

/-! ## A run before it is started -/

/-- A run that nobody has started. -/
def unstarted (s : Settings) (cancelled : Bool) : Run :=
  { settings := s
    hub :=
      { cancelled, work := { capacity := s.queueCapacity }
        artifacts := { capacity := s.queueCapacity }, slots := max 1 s.workers } }

theorem make_eq (positive : 0 < s.queueCapacity) : make s = .ok (unstarted s false) := by
  simp [make, Queue.make?, Nat.ne_of_gt positive, bind, Except.bind, pure, Except.pure, unstarted]

theorem enter_unstarted (s : Settings) (cancelled : Bool) :
    (unstarted s cancelled).enter .launching = fresh s 0 cancelled := rfl

theorem begin_of_validate (valid : s.validate = .ok ()) : begin s = .ok (fresh s 0 false) := by
  have made := make_eq (validate_eq_ok_iff.mp valid).2.1
  have settings : (unstarted s false).settings.validate = .ok () := valid
  simp only [begin, made, bind, Except.bind, start, settings]
  rfl

theorem stepTask_unstarted (w : World) (s : Settings) (cancelled : Bool) (a : Action) :
    (unstarted s cancelled).stepTask w a = none := by
  cases a with
  | supervisor signal => cases signal <;> rfl
  | discovery | worker | lone | consumption | collector | cancel | tick => rfl

theorem settings_of_reached {r₀ : Run} (started : begin s = .ok r₀)
    (reached : Relation.ReflTransGen (Change w) r₀ r) : r.settings = s := by
  obtain ⟨now, cancelled, rfl⟩ | ⟨d, c, coherent⟩ := coherent_of_reached started reached
  · rfl
  · exact coherent.fits.settings

end Run

/-- Queues that good settings ask for can be made. -/
theorem Settings.vet_eq (s : Settings) : s.vet = s.validate := by
  cases valid : s.validate with
  | error fault => simp [vet, valid, bind, Except.bind]
  | ok =>
      have positive := (Run.validate_eq_ok_iff.mp valid).2.1
      simp [vet, valid, bind, Except.bind, Queue.make?, Nat.ne_of_gt positive, pure, Except.pure]

/-- A run with the calls that start it. -/
structure SharedRun where
  run : Run
  calls : List StartCall := []

namespace SharedRun

open Run

/-! ## Calls that start a run -/

def idle (s : Settings) : SharedRun := { run := unstarted s false }

def alreadyStarted (state : Lifecycle) : Fault :=
  .supervisor ("pipeline already started (state: " ++ state.name ++ ")")

def move (k : SharedRun) (i : Nat) (call : StartCall) : SharedRun :=
  { k with calls := k.calls.set i call }

/-- The next step of a call. Only the claim looks at the state and changes it at once; what a
refusal names is the state that it finds later. -/
def proceed (k : SharedRun) (i : Nat) : Option SharedRun :=
  match k.calls[i]? with
  | some .checking =>
    match k.run.settings.vet with
    | .ok _ => some (k.move i .claiming)
    | .error fault => some (k.move i (.ended (.error fault)))
  | some .claiming =>
    if k.run.lifecycle = .idle then
      some { k.move i .spawning with run := k.run.enter .launching }
    else some (k.move i .refusing)
  | some .refusing => some (k.move i (.ended (.error (alreadyStarted k.run.lifecycle))))
  | some .spawning => some (k.move i (.ended (.ok ())))
  | some (.ended _) | none => none

/-- The clock of a run begins when it is claimed, and its tasks exist when they are spawned. -/
def permits (k : SharedRun) : Action → Bool
  | .cancel => true
  | .tick _ => k.run.lifecycle ≠ .idle
  | _ => !k.calls.any StartCall.isSpawning

inductive Event where
  | call
  | proceed (i : Nat)
  | act (a : Action)

def happen (w : World) (k : SharedRun) : Event → Option SharedRun
  | .call => some { k with calls := k.calls ++ [.checking] }
  | .proceed i => k.proceed i
  | .act a => if k.permits a then (k.run.happen w a).map fun run => { k with run } else none

/-- What becomes of a run and its calls by some events, in their order. -/
def replay (w : World) (k : SharedRun) (events : List Event) : Option SharedRun :=
  events.foldlM (happen w) k

/-- The states that are seen: the first, and the one after each event. -/
def seen (w : World) (k : SharedRun) : List Event → List Lifecycle
  | [] => [k.run.lifecycle]
  | e :: events =>
    k.run.lifecycle ::
      match k.happen w e with
      | some k' => seen w k' events
      | none => []

/-- All that the next step of a call can be. -/
inductive Proceeds (k : SharedRun) (i : Nat) : SharedRun → Prop where
  | admitted : k.calls[i]? = some .checking → k.run.settings.validate = .ok () →
      Proceeds k i (k.move i .claiming)
  | rejected (fault : Fault) : k.calls[i]? = some .checking →
      k.run.settings.validate = .error fault → Proceeds k i (k.move i (.ended (.error fault)))
  | claimed : k.calls[i]? = some .claiming → k.run.lifecycle = .idle →
      Proceeds k i { k.move i .spawning with run := k.run.enter .launching }
  | late : k.calls[i]? = some .claiming → k.run.lifecycle ≠ .idle →
      Proceeds k i (k.move i .refusing)
  | refused : k.calls[i]? = some .refusing →
      Proceeds k i (k.move i (.ended (.error (alreadyStarted k.run.lifecycle))))
  | spawned : k.calls[i]? = some .spawning → Proceeds k i (k.move i (.ended (.ok ())))

variable {w : World} {s : Settings} {k k' : SharedRun} {i : Nat} {call call' : StartCall}

theorem proceeds_of_proceed (h : k.proceed i = some k') : k.Proceeds i k' := by
  unfold proceed at h
  rw [Settings.vet_eq] at h
  split at h
  · next at_ =>
      split at h
      · next valid => cases h; exact .admitted at_ valid
      · next fault invalid => cases h; exact .rejected fault at_ invalid
  · next at_ =>
      split at h
      · next idle => cases h; exact .claimed at_ idle
      · next started => cases h; exact .late at_ started
  · next at_ => cases h; exact .refused at_
  · next at_ => cases h; exact .spawned at_
  · cases h
  · cases h

theorem mem_move {k : SharedRun} (mem : call ∈ (k.move i call').calls) :
    call ∈ k.calls ∨ call = call' :=
  List.mem_or_eq_of_mem_set mem

theorem countP_move (at_ : k.calls[i]? = some call) (call' : StartCall) :
    (k.move i call').calls.countP StartCall.hasRun + call.hasRun.toNat =
      k.calls.countP StartCall.hasRun + call'.hasRun.toNat := by
  obtain ⟨rest, before, after⟩ := exists_perm_set at_ call'
  have all : (k.move i call').calls.Perm (call' :: rest) := after
  rw [all.countP_eq, before.countP_eq, List.countP_cons, List.countP_cons]
  simp only [Bool.toNat, Bool.cond_eq_ite]
  omega

/-- Nobody has the run yet. -/
structure Unclaimed (s : Settings) (k : SharedRun) : Prop where
  run : ∃ cancelled, k.run = unstarted s cancelled
  nobody : k.calls.countP StartCall.hasRun = 0
  unrefused : .refusing ∉ k.calls
  rejected : ∀ fault, .ended (.error fault) ∈ k.calls → s.validate = .error fault

/-- One call has the run. -/
structure Claimed (w : World) (s : Settings) (k : SharedRun) : Prop where
  valid : s.validate = .ok ()
  reached : Relation.ReflTransGen (Change w) (fresh s 0 false) k.run
  winner : k.calls.countP StartCall.hasRun = 1
  spawning : .spawning ∈ k.calls → ∃ now cancelled, k.run = fresh s now cancelled
  refused : ∀ fault, .ended (.error fault) ∈ k.calls →
    ∃ state, state ≠ .idle ∧ fault = alreadyStarted state

/-- What a run and the calls that start it keep. -/
structure Governed (w : World) (s : Settings) (k : SharedRun) : Prop where
  stage : Unclaimed s k ∨ Claimed w s k
  admitted : ∀ call ∈ k.calls, call.isAdmitted → s.validate = .ok ()

theorem Claimed.ordered (claimed : Claimed w s k) : k.run.Ordered :=
  ordered_of_reached (begin_of_validate claimed.valid) claimed.reached

theorem Governed.settings (governed : Governed w s k) : k.run.settings = s := by
  obtain unclaimed | claimed := governed.stage
  · obtain ⟨cancelled, run⟩ := unclaimed.run
    rw [run]
    rfl
  · exact settings_of_reached (begin_of_validate claimed.valid) claimed.reached

theorem Unclaimed.idle (unclaimed : Unclaimed s k) : k.run.lifecycle = .idle := by
  obtain ⟨cancelled, run⟩ := unclaimed.run
  rw [run]
  rfl

theorem governed_idle (w : World) (s : Settings) : Governed w s (idle s) where
  stage := .inl ⟨⟨false, rfl⟩, rfl, List.not_mem_nil, fun _ mem => absurd mem List.not_mem_nil⟩
  admitted _ mem := absurd mem List.not_mem_nil

/-- A step of a call that leaves the run alone. -/
theorem Unclaimed.move (unclaimed : Unclaimed s k) (at_ : k.calls[i]? = some call)
    (poor : call.hasRun = false) (poor' : call'.hasRun = false) (unrefused : call' ≠ .refusing)
    (rejected : ∀ fault, call' = .ended (.error fault) → s.validate = .error fault) :
    Unclaimed s (k.move i call') where
  run := unclaimed.run
  nobody := by
    have count := countP_move at_ call'
    rw [poor, poor', unclaimed.nobody] at count
    exact count
  unrefused mem := by
    obtain old | new := mem_move mem
    · exact unclaimed.unrefused old
    · exact unrefused new.symm
  rejected fault mem := by
    obtain old | new := mem_move mem
    · exact unclaimed.rejected fault old
    · exact rejected fault new.symm

theorem Claimed.move (claimed : Claimed w s k) (at_ : k.calls[i]? = some call)
    (same : call'.hasRun = call.hasRun) (spawned : call' ≠ .spawning)
    (refused : ∀ fault, call' = .ended (.error fault) →
      ∃ state, state ≠ .idle ∧ fault = alreadyStarted state) :
    Claimed w s (k.move i call') where
  valid := claimed.valid
  reached := claimed.reached
  winner := by
    have count := countP_move at_ call'
    rw [same, claimed.winner] at count
    exact Nat.add_right_cancel count
  spawning mem := by
    obtain old | new := mem_move mem
    · exact claimed.spawning old
    · exact absurd new.symm spawned
  refused fault mem := by
    obtain old | new := mem_move mem
    · exact claimed.refused fault old
    · exact refused fault new.symm

/-- The claim of an idle run: what nobody had is one call's from now on. -/
theorem Unclaimed.claim (unclaimed : Unclaimed s k) (valid : s.validate = .ok ())
    (at_ : k.calls[i]? = some .claiming) :
    Claimed w s { k.move i .spawning with run := k.run.enter .launching } := by
  obtain ⟨cancelled, run⟩ := unclaimed.run
  have entered : k.run.enter .launching = fresh s 0 cancelled := by rw [run, enter_unstarted]
  refine ⟨valid, ?_, ?_, fun _ => ⟨0, cancelled, entered⟩, fun fault mem => ?_⟩
  · dsimp only
    rw [entered]
    cases cancelled with
    | false => exact .refl
    | true => exact .single .cancel
  · have count := countP_move at_ .spawning
    rw [unclaimed.nobody] at count
    exact count
  · obtain old | new := mem_move mem
    · exact absurd (valid.symm.trans (unclaimed.rejected fault old)) (by simp)
    · cases new

theorem Governed.proceed (governed : Governed w s k) (h : k.Proceeds i k') :
    Governed w s k' := by
  have settings := governed.settings
  have moved {call call' : StartCall} (at_ : k.calls[i]? = some call)
      (good : call'.isAdmitted → s.validate = .ok ()) :
      ∀ x ∈ (k.move i call').calls, x.isAdmitted → s.validate = .ok () := by
    intro x mem admitted
    obtain old | rfl := mem_move mem
    · exact governed.admitted x old admitted
    · exact good admitted
  have passed {call : StartCall} (at_ : k.calls[i]? = some call) (admitted : call.isAdmitted) :
      s.validate = .ok () :=
    governed.admitted call (List.mem_of_getElem? at_) admitted
  cases h with
  | admitted at_ valid =>
      rw [settings] at valid
      refine ⟨governed.stage.imp (fun unclaimed => ?_) fun claimed => ?_, moved at_ fun _ => valid⟩
      · exact unclaimed.move at_ rfl rfl (by simp) (by simp)
      · exact claimed.move at_ rfl (by simp) (by simp)
  | rejected fault at_ invalid =>
      rw [settings] at invalid
      refine ⟨.inl ?_, moved at_ (by simp [StartCall.isAdmitted])⟩
      obtain unclaimed | claimed := governed.stage
      · exact unclaimed.move at_ rfl rfl (by simp) fun fault' eq => by cases eq; exact invalid
      · exact absurd (claimed.valid.symm.trans invalid) (by simp)
  | claimed at_ idle =>
      have valid := passed at_ rfl
      refine ⟨.inr ?_, moved at_ fun _ => valid⟩
      obtain unclaimed | claimed := governed.stage
      · exact unclaimed.claim valid at_
      · exact absurd idle claimed.ordered.started
  | late at_ started =>
      refine ⟨.inr ?_, moved at_ fun _ => passed at_ rfl⟩
      obtain unclaimed | claimed := governed.stage
      · exact absurd unclaimed.idle started
      · exact claimed.move at_ rfl (by simp) (by simp)
  | refused at_ =>
      refine ⟨.inr ?_, moved at_ (by simp [StartCall.isAdmitted])⟩
      obtain unclaimed | claimed := governed.stage
      · exact absurd (List.mem_of_getElem? at_) unclaimed.unrefused
      · refine claimed.move at_ rfl (by simp) fun fault eq => ?_
        cases eq
        exact ⟨_, claimed.ordered.started, rfl⟩
  | spawned at_ =>
      refine ⟨.inr ?_, moved at_ fun _ => passed at_ rfl⟩
      obtain unclaimed | claimed := governed.stage
      · have none := List.countP_eq_zero.mp unclaimed.nobody _ (List.mem_of_getElem? at_)
        exact absurd rfl none
      · exact claimed.move at_ rfl (by simp) (by simp)

/-- The clock and the tasks stand still until the run is claimed. -/
theorem Unclaimed.act (unclaimed : Unclaimed s k) {a : Action} {r : Run} (permits : k.permits a)
    (h : k.run.happen w a = some r) : Unclaimed s { k with run := r } := by
  obtain ⟨cancelled, run⟩ := unclaimed.run
  obtain ⟨_, rfl⟩ | ⟨time, rfl, _⟩ | stepped := cases_of_happen h
  · exact { unclaimed with run := ⟨true, by rw [run]; rfl⟩ }
  · simp [SharedRun.permits, unclaimed.idle] at permits
  · rw [run, stepTask_unstarted] at stepped
    cases stepped

theorem Claimed.act (claimed : Claimed w s k) {a : Action} {r : Run} (permits : k.permits a)
    (h : k.run.happen w a = some r) : Claimed w s { k with run := r } where
  valid := claimed.valid
  reached := claimed.reached.tail (change_of_happen h)
  winner := claimed.winner
  refused := claimed.refused
  spawning mem := by
    obtain ⟨now, cancelled, run⟩ := claimed.spawning mem
    obtain ⟨_, rfl⟩ | ⟨time, _, _, rfl⟩ | stepped := cases_of_happen h
    · exact ⟨now, true, by rw [run]; rfl⟩
    · exact ⟨time, cancelled, by rw [run]; rfl⟩
    · have busy : k.calls.any StartCall.isSpawning := List.any_eq_true.mpr ⟨_, mem, rfl⟩
      cases a with
      | cancel | tick => cases stepped
      | supervisor | discovery | worker | lone | consumption | collector =>
          simp [SharedRun.permits, busy] at permits

theorem Governed.happen (governed : Governed w s k) {e : Event} (h : k.happen w e = some k') :
    Governed w s k' := by
  cases e with
  | call =>
      cases h
      have only {call : StartCall} (mem : call ∈ k.calls ++ [.checking])
          (other : call ≠ .checking) : call ∈ k.calls := by
        simpa [other] using mem
      have count : (k.calls ++ [StartCall.checking]).countP StartCall.hasRun =
          k.calls.countP StartCall.hasRun := by
        rw [List.countP_append]
        rfl
      refine ⟨governed.stage.imp (fun unclaimed => ?_) fun claimed => ?_, fun call mem good => ?_⟩
      · exact ⟨unclaimed.run, count.trans unclaimed.nobody,
          fun mem => unclaimed.unrefused (only mem (by simp)),
          fun fault mem => unclaimed.rejected fault (only mem (by simp))⟩
      · exact ⟨claimed.valid, claimed.reached, count.trans claimed.winner,
          fun mem => claimed.spawning (only mem (by simp)),
          fun fault mem => claimed.refused fault (only mem (by simp))⟩
      · exact governed.admitted call (only mem (by rintro rfl; cases good)) good
  | proceed i => exact governed.proceed (proceeds_of_proceed h)
  | act a =>
      simp only [SharedRun.happen] at h
      obtain ⟨permits, happens⟩ := Option.ite_none_right_eq_some.mp h
      obtain ⟨r, stepped, rfl⟩ := Option.map_eq_some_iff.mp happens
      refine ⟨governed.stage.imp (fun unclaimed => ?_) fun claimed => ?_, governed.admitted⟩
      · exact unclaimed.act permits stepped
      · exact claimed.act permits stepped

theorem replay_cons {e : Event} {events : List Event} :
    k.replay w (e :: events) = some k' ↔
      ∃ k₁, k.happen w e = some k₁ ∧ k₁.replay w events = some k' := by
  simp [replay, List.foldlM_cons, Option.bind_eq_some_iff]

theorem replay_append {before after : List Event} :
    k.replay w (before ++ after) = some k' ↔
      ∃ k₁, k.replay w before = some k₁ ∧ k₁.replay w after = some k' := by
  simp [replay, List.foldlM_append, Option.bind_eq_some_iff]

theorem Governed.replay (governed : Governed w s k) {events : List Event}
    (course : k.replay w events = some k') : Governed w s k' := by
  induction events generalizing k with
  | nil =>
      obtain rfl : k = k' := Option.some.inj course
      exact governed
  | cons e events ih =>
      obtain ⟨k₁, happens, rest⟩ := replay_cons.mp course
      exact ih (governed.happen happens) rest

theorem Proceeds.leads (h : k.Proceeds i k') : k.run.lifecycle.Leads k'.run.lifecycle := by
  cases h with
  | claimed _ idle => exact .inr (by rw [idle]; rfl)
  | admitted | rejected | late | refused | spawned => exact .inl rfl

theorem Governed.leads (governed : Governed w s k) {e : Event} (h : k.happen w e = some k') :
    k.run.lifecycle.Leads k'.run.lifecycle := by
  cases e with
  | call => cases h; exact .inl rfl
  | proceed i => exact (proceeds_of_proceed h).leads
  | act a =>
      simp only [SharedRun.happen] at h
      obtain ⟨permits, happens⟩ := Option.ite_none_right_eq_some.mp h
      obtain ⟨r, stepped, rfl⟩ := Option.map_eq_some_iff.mp happens
      obtain unclaimed | claimed := governed.stage
      · exact .inl ((unclaimed.act permits stepped).idle.trans unclaimed.idle.symm)
      · exact leads_of_reached (begin_of_validate claimed.valid) claimed.reached
          (change_of_happen stepped)

theorem head?_seen (w : World) (k : SharedRun) (events : List Event) :
    (seen w k events).head? = some k.run.lifecycle := by
  cases events <;> rfl

/-- No event goes back or skips a state, so neither does what is seen of a whole course. -/
theorem Governed.walks (governed : Governed w s k) {events : List Event}
    (course : k.replay w events = some k') :
    (seen w k events).IsChain Lifecycle.Leads ∧
      (seen w k events).getLast? = some k'.run.lifecycle := by
  induction events generalizing k with
  | nil =>
      obtain rfl : k = k' := Option.some.inj course
      exact ⟨.singleton _, rfl⟩
  | cons e events ih =>
      obtain ⟨k₁, happens, rest⟩ := replay_cons.mp course
      obtain ⟨chain, last⟩ := ih (governed.happen happens) rest
      have first := head?_seen w k₁ events
      simp only [seen, happens]
      constructor
      · refine chain.cons fun state head => ?_
        rw [first] at head
        cases head
        exact governed.leads happens
      · rw [List.getLast?_cons, last]
        rfl

theorem getElem?_move (at_ : k.calls[i]? = some call) (call' : StartCall) :
    (k.move i call').calls[i]? = some call' := by
  obtain ⟨lt, _⟩ := List.getElem?_eq_some_iff.mp at_
  exact List.getElem?_set_self lt

/-- A call that has the run keeps it. -/
theorem hasRun_of_happen (at_ : k.calls[i]? = some call) (rich : call.hasRun) {e : Event}
    (h : k.happen w e = some k') : ∃ call', k'.calls[i]? = some call' ∧ call'.hasRun := by
  have moved {j : Nat} {old new : StartCall} (at_j : k.calls[j]? = some old)
      (same : old.hasRun → new.hasRun) :
      ∃ call', (k.move j new).calls[i]? = some call' ∧ call'.hasRun := by
    by_cases here : j = i
    · subst here
      obtain rfl := Option.some.inj (at_.symm.trans at_j)
      exact ⟨new, getElem?_move at_ new, same rich⟩
    · exact ⟨call, (List.getElem?_set_ne here).trans at_, rich⟩
  cases e with
  | call =>
      cases h
      obtain ⟨lt, _⟩ := List.getElem?_eq_some_iff.mp at_
      exact ⟨call, (List.getElem?_append_left lt).trans at_, rich⟩
  | proceed j =>
      cases proceeds_of_proceed h with
      | admitted at_j | rejected _ at_j | late at_j | refused at_j =>
          exact moved at_j fun poor => by cases poor
      | claimed at_j | spawned at_j => exact moved at_j fun _ => rfl
  | act a =>
      simp only [SharedRun.happen] at h
      obtain ⟨_, happens⟩ := Option.ite_none_right_eq_some.mp h
      obtain ⟨r, _, rfl⟩ := Option.map_eq_some_iff.mp happens
      exact ⟨call, at_, rich⟩

theorem hasRun_of_replay (at_ : k.calls[i]? = some call) (rich : call.hasRun)
    {events : List Event} (course : k.replay w events = some k') :
    ∃ call', k'.calls[i]? = some call' ∧ call'.hasRun := by
  induction events generalizing k call with
  | nil =>
      obtain rfl : k = k' := Option.some.inj course
      exact ⟨call, at_, rich⟩
  | cons e events ih =>
      obtain ⟨k₁, happens, rest⟩ := replay_cons.mp course
      obtain ⟨call₁, at₁, rich₁⟩ := hasRun_of_happen at_ rich happens
      exact ih at₁ rich₁ rest

/-- A call that fails in the end has left the run alone at each of its steps. -/
theorem untouched_of_failed {fault : Fault} {k₁ k₂ : SharedRun} {after : List Event}
    (step : k₁.proceed i = some k₂) (course : k₂.replay w after = some k)
    (failed : k.calls[i]? = some (.ended (.error fault))) : k₂.run = k₁.run := by
  cases proceeds_of_proceed step with
  | admitted | rejected | late | refused | spawned => rfl
  | claimed at_ =>
      have got : ({ k₁.move i .spawning with run := k₁.run.enter .launching } : SharedRun).calls[i]? =
          some .spawning := getElem?_move at_ .spawning
      obtain ⟨call, at_end, rich⟩ := hasRun_of_replay got rfl course
      rw [failed] at at_end
      cases at_end
      cases rich

theorem start_of_invalid {r : Run} {fault : Fault} (invalid : r.settings.validate = .error fault) :
    r.start = .error fault := by
  simp only [start, invalid, bind, Except.bind]

theorem start_of_valid {r : Run} (valid : r.settings.validate = .ok ()) :
    r.start =
      if r.lifecycle = .idle then .ok (r.enter .launching)
      else .error (alreadyStarted r.lifecycle) := by
  simp only [start, valid, bind, Except.bind, pure, Except.pure, alreadyStarted]

theorem move_move (k : SharedRun) (i : Nat) (call call' : StartCall) :
    (k.move i call).move i call' = k.move i call' := by
  simp [move]

/-- A call that nobody comes in between starts the run as one step would. -/
theorem replay_alone (w : World) (at_ : k.calls[i]? = some .checking) :
    ∃ n, k.replay w (List.replicate n (.proceed i)) = some
      { run := k.run.start.toOption.getD k.run
        calls := k.calls.set i (.ended (k.run.start.map fun _ => ())) } := by
  have claiming := getElem?_move at_ .claiming
  cases valid : k.run.settings.validate with
  | error fault =>
      have rejected : k.happen w (.proceed i) = some (k.move i (.ended (.error fault))) := by
        simp only [SharedRun.happen, proceed, at_, Settings.vet_eq, valid]
      rw [start_of_invalid valid]
      exact ⟨1, replay_cons.mpr ⟨_, rejected, rfl⟩⟩
  | ok =>
      have admitted : k.happen w (.proceed i) = some (k.move i .claiming) := by
        simp only [SharedRun.happen, proceed, at_, Settings.vet_eq, valid]
      rw [start_of_valid valid]
      refine ⟨3, replay_cons.mpr ⟨_, admitted, ?_⟩⟩
      by_cases idle : k.run.lifecycle = .idle
      · have got : (k.move i .claiming).happen w (.proceed i) = some
            { k.move i .spawning with run := k.run.enter .launching } := by
          simp only [SharedRun.happen, proceed, claiming, move_move]
          exact if_pos idle
        have spawning := getElem?_move at_ .spawning
        rw [if_pos idle]
        refine replay_cons.mpr ⟨_, got, replay_cons.mpr ⟨_, ?_, rfl⟩⟩
        simp only [SharedRun.happen, proceed, spawning]
        simp [move, Except.toOption, Except.map]
      · have late : (k.move i .claiming).happen w (.proceed i) = some (k.move i .refusing) := by
          simp only [SharedRun.happen, proceed, claiming, move_move]
          exact if_neg idle
        have refusing := getElem?_move at_ .refusing
        rw [if_neg idle]
        refine replay_cons.mpr ⟨_, late, replay_cons.mpr ⟨_, ?_, rfl⟩⟩
        simp only [SharedRun.happen, proceed, refusing, move_move]
        rfl

/-- What the calls that start a run and the run itself come to. -/
structure Lawful (w : World) (s : Settings) (events : List Event) (k : SharedRun) : Prop where
  walks : (seen w (idle s) events).IsChain Lifecycle.Leads
  begins : (seen w (idle s) events).head? = some .idle
  arrives : (seen w (idle s) events).getLast? = some k.run.lifecycle
  told : k.run.supervisor.history.map (·.2) = k.run.lifecycle.upTo
  once : k.calls.countP StartCall.hasRun = if k.run.lifecycle = .idle then 0 else 1
  refused : ∀ (i : Nat) fault, k.calls[i]? = some (.ended (.error fault)) →
    s.validate = .error fault ∨
      s.validate = .ok () ∧ ∃ state, state ≠ .idle ∧ fault = alreadyStarted state
  untouched : ∀ (i : Nat) fault, k.calls[i]? = some (.ended (.error fault)) →
    ∀ before after k₁ k₂, events = before ++ .proceed i :: after →
      (idle s).replay w before = some k₁ → k₁.proceed i = some k₂ → k₂.run = k₁.run
  spawned : StartCall.ended (.ok ()) ∉ k.calls →
    k.run.discovery = none ∧ k.run.workers = [] ∧ k.run.consumption = none
  drained : k.run.lifecycle = .draining ∨ k.run.lifecycle = .stopped → k.run.hub.work.closed
  stopped : k.run.lifecycle = .stopped →
    k.run.hub.artifacts.closed ∧ ∀ x ∈ k.run.workers, x.Over
  alone : ∀ i : Nat, k.calls[i]? = some .checking →
    ∃ n, k.replay w (List.replicate n (.proceed i)) = some
      { run := k.run.start.toOption.getD k.run
        calls := k.calls.set i (.ended (k.run.start.map fun _ => ())) }

theorem Governed.once (governed : Governed w s k) :
    k.calls.countP StartCall.hasRun = if k.run.lifecycle = .idle then 0 else 1 := by
  obtain unclaimed | claimed := governed.stage
  · rw [if_pos unclaimed.idle, unclaimed.nobody]
  · rw [if_neg claimed.ordered.started, claimed.winner]

theorem Governed.told (governed : Governed w s k) : k.run.Told := by
  obtain unclaimed | claimed := governed.stage
  · obtain ⟨cancelled, run⟩ := unclaimed.run
    rw [run]
    rfl
  · exact claimed.ordered.told

theorem Governed.refused (governed : Governed w s k) {fault : Fault}
    (failed : .ended (.error fault) ∈ k.calls) :
    s.validate = .error fault ∨
      s.validate = .ok () ∧ ∃ state, state ≠ .idle ∧ fault = alreadyStarted state := by
  obtain unclaimed | claimed := governed.stage
  · exact .inl (unclaimed.rejected fault failed)
  · exact .inr ⟨claimed.valid, claimed.refused fault failed⟩

/-- As long as no call has succeeded the run has no tasks. -/
theorem Governed.spawned (governed : Governed w s k) (nobody : .ended (.ok ()) ∉ k.calls) :
    k.run.discovery = none ∧ k.run.workers = [] ∧ k.run.consumption = none := by
  obtain unclaimed | claimed := governed.stage
  · obtain ⟨cancelled, run⟩ := unclaimed.run
    rw [run]
    exact ⟨rfl, rfl, rfl⟩
  · have winner : 0 < k.calls.countP StartCall.hasRun := by rw [claimed.winner]; exact Nat.one_pos
    obtain ⟨call, mem, rich⟩ := List.countP_pos_iff.mp winner
    have spawning : .spawning ∈ k.calls := by
      cases call with
      | spawning => exact mem
      | ended result =>
          cases result with
          | ok => exact absurd mem nobody
          | error => cases rich
      | checking | claiming | refusing => cases rich
    obtain ⟨now, cancelled, run⟩ := claimed.spawning spawning
    rw [run]
    exact ⟨rfl, rfl, rfl⟩

/-- Whatever calls start a run, when they come and how they and the run take turns, the run is started
at most once and then led from state to state. A call that fails has changed nothing. -/
theorem starts_once_and_is_led_on {events : List Event}
    (course : (idle s).replay w events = some k) : Lawful w s events k := by
  have first := governed_idle w s
  have governed := first.replay course
  obtain ⟨walks, arrives⟩ := first.walks course
  constructor
  case walks => exact walks
  case begins => exact head?_seen w (idle s) events
  case arrives => exact arrives
  case told => exact governed.told
  case once => exact governed.once
  case refused => exact fun _ _ failed => governed.refused (List.mem_of_getElem? failed)
  case untouched =>
    intro i fault failed before after k₁ k₂ split upTo step
    rw [split] at course
    obtain ⟨k₁', upTo', rest⟩ := replay_append.mp course
    obtain rfl := Option.some.inj (upTo.symm.trans upTo')
    obtain ⟨k₂', step', rest⟩ := replay_cons.mp rest
    obtain rfl := Option.some.inj (step.symm.trans step')
    exact untouched_of_failed step rest failed
  case spawned => exact governed.spawned
  case drained =>
    intro draining
    obtain unclaimed | claimed := governed.stage
    · simp [unclaimed.idle] at draining
    · exact claimed.ordered.drained (by obtain eq | eq := draining <;> simp [eq])
  case stopped =>
    intro stopped
    obtain unclaimed | claimed := governed.stage
    · simp [unclaimed.idle] at stopped
    · exact claimed.ordered.stopped stopped
  case alone => exact fun i => replay_alone w

/-- A catalog that cannot be read. -/
def unreadableWorld : World where
  catalog _ := ⟨some 0, .fails ["no such directory"]⟩
  decoder _ _ := { delay := none, reply := .panics, heeds := false }
  reset := ⟨none, .panics⟩
  accept _ _ := ⟨none, .panics⟩

/-- Two calls find the settings good before either claims the run. The one that came later gets it, and
the other is told so when the run is over. -/
theorem starts_once_and_is_led_on_two_calls :
    ∃ events k, (idle {}).replay unreadableWorld events = some k ∧ k.run.lifecycle = .stopped ∧
      k.calls = [.ended (.error (.supervisor "pipeline already started (state: Stopped)")),
        .ended (.ok ())] ∧
      Lawful unreadableWorld {} events k := by
  let events : List Event :=
    [.call, .call, .proceed 0, .proceed 1, .proceed 1, .proceed 0, .proceed 1] ++
      ([.supervisor .launch, .discovery, .discovery, .supervisor .discoveryEnded, .worker 0,
        .supervisor .workerEnded, .supervisor .workersGone, .consumption,
        .supervisor .consumptionEnded] : List Action).map .act ++ [.proceed 0]
  obtain ⟨k, course, stopped, calls⟩ : ∃ k, (idle {}).replay unreadableWorld events = some k ∧
      k.run.lifecycle = .stopped ∧
      k.calls = [.ended (.error (.supervisor "pipeline already started (state: Stopped)")),
        .ended (.ok ())] := ⟨_, rfl, rfl, rfl⟩
  exact ⟨events, k, course, stopped, calls, starts_once_and_is_led_on course⟩

end SharedRun

end DecodePipeline
