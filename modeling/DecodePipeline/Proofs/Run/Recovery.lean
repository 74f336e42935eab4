import DecodePipeline.Proofs.Run.Deadlock

/-!
What follows when a worker or consumption breaks down. The supervisor learns of it when it
joins the task, and it joins the tasks in their order, each after what feeds it. So the run
stops with the fault unless it jams on the way: discovery or a worker waits for room that
nobody makes any more.
-/

namespace DecodePipeline

/-- Every call of the collaborators ends; it may break down. -/
structure World.Finite (w : World) (s : Settings) : Prop where
  catalog : ∀ n, (w.catalog n).delay.isSome
  answers : w.Answers s.transformTimeout (fun timed _ => timed) (fun timed _ => timed)

namespace Run

variable {w : World} {s : Settings} {r r' : Run} {d d' : Discovery} {c c' : Consumption}

/-- A launched run whose calls all end. -/
structure Timed (s : Settings) (r : Run) (d : Discovery) (c : Consumption) : Prop where
  coherent : Coherent s r d c
  listing : ∀ due reply, d.point = .listing due reply → due.isSome
  awaits : Awaits (fun timed _ => timed) (fun timed _ => timed) r c

theorem timed_launch (s : Settings) (now : Nat) (cancelled : Bool) :
    Timed s (fresh s now cancelled).launch (firstDiscovery s) (firstConsumption s) :=
  ⟨coherent_launch s now cancelled, (fun _ _ at_ => by cases at_), awaits_launch s now cancelled⟩

theorem Timed.works (timed : Timed s r d c) (finite : w.Finite s) (h : Works w r d c r' d' c') :
    Timed s r' d' c' := by
  obtain ⟨coherent, listing, awaits⟩ := timed
  have answers := finite.answers
  rw [← coherent.fits.settings] at answers
  refine ⟨coherent.works h, ?_, awaits.works answers h⟩
  intro due reply at_
  cases h with
  | discovery hub _ moved =>
      cases moved with
      | scan => cases at_; rw [isSome_dueAt]; exact finite.catalog _
      | panic | firstScanFails | list | publish | giveUp | refused | complete | rest | stop
      | wake => cases at_
  | worker | consumption => exact listing due reply at_
  | supervisor supervises =>
      obtain rfl | rfl := supervises.tasks.1
      · exact listing due reply at_
      · obtain ⟨e, ended⟩ := d.over_abort
        rw [ended] at at_
        cases at_

theorem Timed.cancel (timed : Timed s r d c) : Timed s r.cancel d c :=
  ⟨timed.coherent.cancel, timed.listing, { timed.awaits with }⟩

theorem Timed.clock (timed : Timed s r d c) (time : Nat) : Timed s (setClock time r) d c :=
  ⟨timed.coherent.clock time, timed.listing, { timed.awaits with }⟩

def Broken (r : Run) (c : Consumption) : Prop :=
  (∃ x ∈ r.workers, x.point = .ended .panicked) ∨ c.point = .ended .panicked

theorem Broken.works (broken : Broken r c) (h : Works w r d c r' d' c') : Broken r' c' := by
  cases h with
  | discovery => exact broken
  | worker i x x' hub at_ moved =>
      obtain ⟨y, mem, ended⟩ | ended := broken
      · obtain ⟨j, lt, rfl⟩ := List.mem_iff_getElem.mp mem
        -- the worker that broke down is not the one that steps
        have other : i ≠ j := by
          rintro rfl
          rw [List.getElem?_eq_getElem lt] at at_
          obtain rfl := Option.some.inj at_
          exact moved.not_over ⟨_, ended⟩
        refine .inl ⟨r.workers[j], ?_, ended⟩
        have unmoved : (r.workers.set i x')[j]? = some r.workers[j] :=
          (List.getElem?_set_ne other).trans (List.getElem?_eq_getElem lt)
        exact List.mem_of_getElem? unmoved
      · exact .inr ended
  | consumption hub c' moved =>
      obtain worker | ended := broken
      · exact .inl worker
      · exact absurd ⟨_, ended⟩ moved.not_over
  | supervisor supervises =>
      obtain ⟨x, mem, ended⟩ | ended := broken
      · obtain ⟨same, _⟩ | ⟨_, all, _⟩ := supervises.attended.workers
        · exact .inl ⟨x, same ▸ mem, ended⟩
        · refine .inl ⟨x, ?_, ended⟩
          rw [all]
          exact List.mem_map.mpr ⟨x, mem, Worker.aborted_of_over ⟨_, ended⟩⟩
      · obtain rfl | rfl := supervises.tasks.2
        · exact .inr ended
        · refine .inr ?_
          simp [Consumption.abort, ended]

/-- The deadline may pass in the wait for consumption before its end is noticed, and no fault
is recorded. -/
def Severed (r : Run) : Prop :=
  (∃ limit, r.supervisor.phase = .awaitingConsumption limit) ∧ r.supervisor.expired = false ∧
    r.supervisor.deadline.isSome ∧ r.supervisor.firstFault = none

/-- The run is over, and its report has a fault. -/
def StoppedWithFault (r : Run) : Prop := r.lifecycle = .stopped ∧ r.supervisor.firstFault.isSome

/-- A broken run that stops has a fault, unless the deadline cut it off. -/
theorem Works.reports (h : Works w r d c r' d' c') (order : InOrder r d c) (broken : Broken r c)
    (unstopped : r.supervisor.phase ≠ .stopped) (stopped : r'.supervisor.phase = .stopped) :
    r'.supervisor.firstFault.isSome ∨ Severed r := by
  have worker (past : r.supervisor.phase.pastWorkers)
      (broke : ∃ x ∈ r.workers, x.point = .ended .panicked) : r.supervisor.firstFault.isSome := by
    obtain ⟨x, mem, ended⟩ := broke
    exact (order.over_of_all_joined (order.all_joined past) x mem).2 ended
  cases h with
  | discovery | worker | consumption => exact absurd stopped unstopped
  | supervisor supervises =>
      cases supervises with
      | consumptionJoined limit e phase ended =>
          left
          obtain broke | broke := broken
          · have := worker (by rw [phase]; rfl) broke
            obtain ⟨fault, eq⟩ := Option.isSome_iff_exists.mp this
            simp [stop, enter, noted, eq]
          · obtain rfl : e = .panicked := Consumption.Point.ended.inj (ended.symm.trans broke)
            simp [stop, enter, noted, endingFault]
      | consumptionExpired limit phase unnoticed now =>
          obtain broke | broke := broken
          · exact .inl (worker (by rw [phase]; rfl) broke)
          · have unexpired : r.supervisor.expired = false := by
              apply Bool.eq_false_iff.mpr
              intro expired
              have := unnoticed expired
              simp [Consumption.ending?, broke] at this
            rw [unexpired] at now
            have set : r.supervisor.deadline.isSome := by
              cases deadline : r.supervisor.deadline with
              | none => simp [deadline, isDue] at now
              | some due => rfl
            cases fault : r.supervisor.firstFault with
            | none => exact .inr ⟨⟨limit, phase⟩, unexpired, set, fault⟩
            | some first => exact .inl (by simp [stop, enter, abortConsumption, fault])
      | discoveryOver | interrupted | discoveryJoined =>
          simp [noted, drain, enter, arm] at stopped
      | discoveryExpired =>
          rw [expire, abortWorkers_eq] at stopped
          simp [abortDiscovery, enter] at stopped
      | workersGone => simp [enter] at stopped
      | workersExpired =>
          rw [expire, abortWorkers_eq] at stopped
          exact absurd stopped unstopped
      | workerJoined | armed => exact absurd stopped unstopped

theorem InOrder.stopped_still (order : InOrder r d c)
    (stopped : r.supervisor.phase = .stopped) : ¬Works w r d c r' d' c' := by
  have workers := order.workers_over (.inr (by rw [stopped]; rfl))
  intro h
  cases h with
  | discovery _ _ moved => exact moved.not_over (order.discovery_over (by rw [stopped]; rfl))
  | worker i x _ _ at_ moved => exact moved.not_over (workers x (List.mem_of_getElem? at_))
  | consumption _ _ moved => exact moved.not_over (order.consumption_over stopped)
  | supervisor supervises =>
      cases supervises with
      | armed phase =>
          obtain phase | ⟨limit, phase⟩ := phase <;> rw [stopped] at phase <;> cases phase
      | discoveryOver _ phase | interrupted phase | discoveryJoined _ phase
      | discoveryExpired phase | workerJoined _ _ _ phase | workersGone _ phase
      | workersExpired phase | consumptionJoined _ _ phase | consumptionExpired _ phase =>
          rw [stopped] at phase
          cases phase

theorem Coherent.stopped_stuck (coherent : Coherent s r d c)
    (stopped : r.supervisor.phase = .stopped) : ¬Move w r r' := by
  have order := coherent.order
  apply coherent.launched.stuck
  · exact fun time _ _ _ => (order.clock time).stopped_still stopped
  · intro t mem
    rw [coherent.launched.mem_dues] at mem
    obtain ⟨e, at_⟩ := order.discovery_over (by rw [stopped]; rfl)
    obtain ⟨e', at_'⟩ := order.consumption_over stopped
    obtain due | due | due | ⟨x, mem, due⟩ := mem
    · simp [supervisorDue, stopped] at due
    · simp [Discovery.nextDue, at_] at due
    · simp [Consumption.nextDue, at_'] at due
    · obtain ⟨e, ended⟩ := order.workers_over (.inr (by rw [stopped]; rfl)) x mem
      simp [Worker.nextDue, ended] at due

/-- A run that the deadline cuts off can stop without a fault. -/
theorem Severed.stops (severed : Severed r) :
    ∃ r', Move w r r' ∧ r'.supervisor.phase = .stopped ∧ r'.supervisor.firstFault = none := by
  obtain ⟨⟨limit, phase⟩, unexpired, set, faultless⟩ := severed
  obtain ⟨due, deadline⟩ := Option.isSome_iff_exists.mp set
  let time := max r.hub.now due
  refine ⟨(setClock time r).abortConsumption.stop,
    .task (.supervisor .deadline) time (Nat.le_max_left _ _) ?_, rfl, faultless⟩
  simp [time, stepTask, supervise, setClock, phase, unexpired, deadline, isDue]

def IsJammed (r : Run) : Prop := ∃ d c, Launched r d c ∧ Jammed r d c

def DiscoveryOver (r : Run) : Prop := ∃ d, r.discovery = some d ∧ d.Over

/-- Discovery does not go on for ever: the run lists once, or is cancelled, or discovery has
ended. -/
def Ending (s : Settings) (r : Run) (d : Discovery) : Prop :=
  s.mode = .batch ∨ r.hub.cancelled ∨ d.Over

theorem Ending.works (ending : Ending s r d) (h : Works w r d c r' d' c') : Ending s r' d' := by
  obtain batch | cancelled | finished := ending
  · exact .inl batch
  · exact .inr (.inl (h.cancelled cancelled))
  · refine .inr (.inr ?_)
    cases h with
    | discovery _ _ moved => exact absurd finished moved.not_over
    | worker | consumption => exact finished
    | supervisor supervises =>
        obtain rfl | rfl := supervises.tasks.1
        · exact finished
        · exact d.over_abort

/-- All that holds of a broken run on its way to its end. -/
structure Recovering (s : Settings) (r : Run) (d : Discovery) (c : Consumption) : Prop where
  timed : Timed s r d c
  broken : Broken r c
  reported : r.supervisor.phase = .stopped → r.supervisor.firstFault.isSome

theorem Recovering.works (recovering : Recovering s r d c) (finite : w.Finite s)
    (unsevered : ¬Severed r) (h : Works w r d c r' d' c') : Recovering s r' d' c' := by
  obtain ⟨timed, broken, reported⟩ := recovering
  refine ⟨timed.works finite h, broken.works h, ?_⟩
  intro stopped
  have order := timed.coherent.order
  have unstopped : r.supervisor.phase ≠ .stopped := fun phase => order.stopped_still phase h
  exact (h.reports order broken unstopped stopped).resolve_right unsevered

theorem Recovering.clock (recovering : Recovering s r d c) (time : Nat) :
    Recovering s (setClock time r) d c :=
  ⟨recovering.timed.clock time, recovering.broken, recovering.reported⟩

theorem Recovering.move (recovering : Recovering s r d c) (finite : w.Finite s)
    (unsevered : ¬Severed r) (move : Move w r r') :
    ∃ d' c', Recovering s r' d' c' ∧ (Ending s r d → Ending s r' d') := by
  cases move with
  | task a time _ stepped =>
      have late := recovering.clock time
      obtain ⟨d', c', h⟩ := late.timed.coherent.launched.works stepped
      refine ⟨d', c', late.works finite unsevered h, ?_⟩
      intro ending
      exact Ending.works (r := setClock time r) ending h
  | wait time => exact ⟨d, c, recovering.clock time, id⟩

/-- Neither a jam nor the deadline's cut lies ahead. -/
def Clear (w : World) (r : Run) : Prop :=
  ∀ r', Relation.ReflTransGen (Move w) r r' → ¬IsJammed r' ∧ ¬Severed r'

/-- With a clear way a broken run comes to its end, once discovery must end. -/
theorem Recovering.inevitable (recovering : Recovering s r d c) (finite : w.Finite s)
    (positive : 0 < s.queueCapacity) (ending : Ending s r d) (clear : Clear w r) :
    Inevitable w StoppedWithFault r := by
  refine inevitable_of_potential
    (fun r => Clear w r ∧ ∃ d c, Recovering s r d c ∧ Ending s r d) _ (potential w) ?_ ?_ ?_
    (fun _ _ => rfl) r ⟨clear, d, c, recovering, ending⟩
  · rintro r ⟨clear, d, c, recovering, _⟩ unfinished
    have coherent := recovering.timed.coherent
    have unstopped : r.supervisor.phase ≠ .stopped := fun phase =>
      unfinished ⟨lifecycle_stopped.mpr phase, recovering.reported phase⟩
    apply (coherent.moves_or_jammed positive recovering.timed.listing recovering.timed.awaits
      unstopped).resolve_right
    intro jam
    exact (clear r .refl).1 ⟨d, c, coherent.launched, jam⟩
  · rintro r r' ⟨clear, d, c, recovering, ending⟩ _ move
    obtain ⟨d', c', recovering', still⟩ := recovering.move finite (clear r .refl).2 move
    exact ⟨fun r'' reached => clear r'' (reached.head move), d', c', recovering', still ending⟩
  · rintro r r' a time ⟨_, d, c, recovering, ending⟩ _ stepped
    have coherent := recovering.timed.coherent.clock time
    obtain ⟨d', c', h⟩ := coherent.launched.works stepped
    refine h.potential_lt coherent.launched coherent.order ?_
    intro due resting
    obtain batch | cancelled | ⟨e, finished⟩ := ending
    · exact absurd batch (coherent.fits.rests due resting)
    · exact cancelled
    · rw [finished] at resting
      cases resting

/-- A task of the run that others depend on has broken down. -/
def HasBroken (r : Run) : Prop :=
  (∃ x ∈ r.workers, x.point = .ended .panicked) ∨
    ∃ c, r.consumption = some c ∧ c.point = .ended .panicked

/-- Nothing breaks down before there are tasks. -/
theorem not_hasBroken_fresh (s : Settings) (now : Nat) (cancelled : Bool) :
    ¬HasBroken (fresh s now cancelled) := by
  rintro (⟨x, mem, _⟩ | ⟨c, some, _⟩)
  · cases mem
  · cases some

theorem recovering_of_reached {r₀ : Run} (started : begin s = .ok r₀) (finite : w.Finite s)
    (reached : Relation.ReflTransGen (Change w) r₀ r) (broken : HasBroken r)
    (unstopped : r.lifecycle ≠ .stopped) : ∃ d c, Recovering s r d c := by
  have invariant := launched_induction (w := w) (s := s) (P := fun r d c => Timed s r d c)
    (fun now cancelled => timed_launch s now cancelled) (fun timed h => timed.works finite h)
    (fun timed => timed.cancel) (fun time _ timed => timed.clock time) started reached
  obtain ⟨now, cancelled, rfl⟩ | ⟨d, c, launched, timed⟩ := invariant
  · exact absurd broken (not_hasBroken_fresh s now cancelled)
  · refine ⟨d, c, timed, ?_, fun phase => absurd (lifecycle_stopped.mpr phase) unstopped⟩
    obtain worker | ⟨c', some, ended⟩ := broken
    · exact .inl worker
    · obtain rfl : c = c' := Option.some.inj (launched.consumption.symm.trans some)
      exact .inr ended

theorem timed_of_moves (finite : w.Finite s) (timed : Timed s r d c)
    (reached : Relation.ReflTransGen (Move w) r r') : ∃ d' c', Timed s r' d' c' := by
  induction reached with
  | refl => exact ⟨d, c, timed⟩
  | tail _ move ih =>
      obtain ⟨d', c', timed⟩ := ih
      exact move.keeps (fun timed => timed.coherent.launched)
        (fun timed h => timed.works finite h) (fun time timed => timed.clock time) timed

theorem Recovering.reached (finite : w.Finite s) (recovering : Recovering s r d c)
    (clear : Clear w r) (reached : Relation.ReflTransGen (Move w) r r') :
    ∃ d' c', Recovering s r' d' c' := by
  induction reached with
  | refl => exact ⟨d, c, recovering⟩
  | tail before move ih =>
      obtain ⟨d', c', recovering⟩ := ih
      obtain ⟨d'', c'', recovering', _⟩ := recovering.move finite (clear _ before).2 move
      exact ⟨d'', c'', recovering'⟩

/-- What must not lie ahead of a broken run that is to stop with its fault. -/
theorem Timed.clear (timed : Timed s r d c) (finite : w.Finite s)
    (recovers : Inevitable w StoppedWithFault r) : Clear w r := by
  intro r' reached
  have recovers : Inevitable w (fun r => StoppedWithFault r ∧ ∃ d c, Timed s r d c) r :=
    recovers.mono fun r' reached stopped => ⟨stopped, timed_of_moves finite timed reached⟩
  have final (r r' : Run) (at_ : StoppedWithFault r ∧ ∃ d c, Timed s r d c) : ¬Move w r r' := by
    obtain ⟨stopped, d, c, timed⟩ := at_
    exact timed.coherent.stopped_stuck (lifecycle_stopped.mp stopped.1)
  have later := recovers.of_reached final reached
  constructor
  · rintro ⟨d', c', launched, jam⟩
    obtain ⟨d'', c'', timed'⟩ := timed_of_moves finite timed reached
    obtain rfl : d' = d'' :=
      Option.some.inj (launched.discovery.symm.trans timed'.coherent.launched.discovery)
    obtain rfl : c' = c'' :=
      Option.some.inj (launched.consumption.symm.trans timed'.coherent.launched.consumption)
    have stopped := lifecycle_stopped.mp (later.of_stuck fun _ => jam.stuck timed'.coherent).1.1
    obtain ⟨phase, _⟩ | ⟨phase, _⟩ := jam.supervisor <;> rw [stopped] at phase <;> cases phase
  · intro severed
    obtain ⟨r'', move, stopped, faultless⟩ := severed.stops (w := w)
    obtain ⟨d'', c'', timed'⟩ := timed_of_moves finite timed (reached.tail move)
    have at_ := (recovers.of_reached final (reached.tail move)).of_stuck fun _ =>
      timed'.coherent.stopped_stuck stopped
    have fault := at_.1.2
    rw [faultless] at fault
    cases fault

/-- A broken run comes to its end exactly when discovery does and the way is clear. -/
theorem Recovering.inevitable_iff (recovering : Recovering s r d c) (finite : w.Finite s)
    (positive : 0 < s.queueCapacity) :
    Inevitable w StoppedWithFault r ↔
      (s.mode = .batch ∨ r.hub.cancelled ∨ Inevitable w DiscoveryOver r) ∧ Clear w r := by
  constructor
  · intro recovers
    refine ⟨.inr (.inr (recovers.mono fun r' reached stopped => ?_)),
      recovering.timed.clear finite recovers⟩
    obtain ⟨d', c', timed⟩ := timed_of_moves finite recovering.timed reached
    have phase := lifecycle_stopped.mp stopped.1
    exact ⟨d', timed.coherent.launched.discovery,
      timed.coherent.order.discovery_over (by rw [phase]; rfl)⟩
  · rintro ⟨batch | cancelled | finished, clear⟩
    · exact recovering.inevitable finite positive (.inl batch) clear
    · exact recovering.inevitable finite positive (.inr (.inl cancelled)) clear
    · refine finished.bind ?_
      rintro r' reached ⟨d', here, finished⟩
      obtain ⟨d'', c'', recovering'⟩ := recovering.reached finite clear reached
      obtain rfl : d' = d'' :=
        Option.some.inj (here.symm.trans recovering'.timed.coherent.launched.discovery)
      exact recovering'.inevitable finite positive (.inr (.inr finished)) fun r'' later =>
        clear r'' (reached.trans later)

end Run

end DecodePipeline
