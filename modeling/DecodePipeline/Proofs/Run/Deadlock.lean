import DecodePipeline.Proofs.Run.Progress

/-!
When a run cannot go on. If every call of the collaborators ends, a run that has not stopped
can go on unless it is jammed: discovery or a worker waits for room in a full queue, and
nobody is left who would make room or wake the supervisor. A jammed run does not go on.
-/

namespace DecodePipeline

/-- What the collaborators answer to the calls of workers and consumption; the first
argument says whether a call ends. -/
structure World.Answers (w : World) (timeout : Span) (decoded : Bool → Reply Fault Decoded → Prop)
    (shown : Bool → Reply (List String) Unit → Prop) : Prop where
  decoder : ∀ id n, decoded (Attempts.limited timeout (w.decoder id n)).delay.isSome
    (Attempts.limited timeout (w.decoder id n)).reply
  reset : shown w.reset.delay.isSome w.reset.reply
  accept : ∀ n set, shown (w.accept n set).delay.isSome (w.accept n set).reply

namespace Run

variable {w : World} {s : Settings} {r r' : Run} {d d' : Discovery} {c c' : Consumption}
  {decoded : Bool → Reply Fault Decoded → Prop} {shown : Bool → Reply (List String) Unit → Prop}

/-- The calls that run have the answers that the collaborators give. -/
structure Awaits (decoded : Bool → Reply Fault Decoded → Prop)
    (shown : Bool → Reply (List String) Unit → Prop) (r : Run) (c : Consumption) : Prop where
  workers : ∀ x ∈ r.workers, ∀ item due heeds reply,
    x.point = .busy (.calling item due heeds reply) → decoded due.isSome reply
  consumption : ∀ set due reply,
    (c.point = .resetting set due reply ∨ c.point = .accepting set due reply) →
      shown due.isSome reply

theorem isSome_dueAt (now : Nat) (delay : Option Nat) :
    (dueAt now delay).isSome = delay.isSome := by
  simp [dueAt]

theorem awaits_launch (s : Settings) (now : Nat) (cancelled : Bool) :
    Awaits decoded shown (fresh s now cancelled).launch (firstConsumption s) where
  workers x mem _ _ _ _ busy := by
    obtain rfl := List.eq_of_mem_replicate mem
    cases busy
  consumption _ _ _ at_ := by obtain at_ | at_ := at_ <;> cases at_

theorem Awaits.works (awaits : Awaits decoded shown r c)
    (answers : w.Answers r.settings.transformTimeout decoded shown) (h : Works w r d c r' d' c') :
    Awaits decoded shown r' c' := by
  cases h with
  | discovery => exact { awaits with }
  | worker i x x' hub at_ moved =>
      refine { awaits with workers := ?_ }
      intro y mem item due heeds reply busy
      obtain old | rfl := List.mem_or_eq_of_mem_set mem
      · exact awaits.workers y old item due heeds reply busy
      · cases moved with
        | attempt a a' _ moved =>
            cases busy
            cases moved with
            | call => rw [isSome_dueAt]; exact answers.decoder _ _
        | leave | take | transformed | failed | abandon | panic | abandonSet | hand | refused =>
            cases busy
  | consumption hub c' moved =>
      refine { awaits with consumption := ?_ }
      intro set due reply at_
      cases moved with
      | reset =>
          obtain at_ | at_ := at_ <;> cases at_
          rw [isSome_dueAt]
          exact answers.reset
      | offer | offerAfterReset =>
          obtain at_ | at_ := at_ <;> cases at_
          rw [isSome_dueAt]
          exact answers.accept _ _
      | take | leave | reject | panic | refuse | accept => obtain at_ | at_ := at_ <;> cases at_
  | supervisor supervises =>
      constructor
      · intro x mem item due heeds reply busy
        obtain ⟨same, _⟩ | ⟨_, ended, _⟩ := supervises.attended.workers
        · exact awaits.workers x (same ▸ mem) item due heeds reply busy
        · rw [ended] at mem
          obtain ⟨y, _, rfl⟩ := List.mem_map.mp mem
          exact absurd busy (y.aborted_ne_busy _)
      · intro set due reply at_
        obtain rfl | rfl := supervises.tasks.2
        · exact awaits.consumption set due reply at_
        · obtain ⟨e, finished⟩ := c.over_abort
          rw [finished] at at_
          obtain at_ | at_ := at_ <;> cases at_

/-- Discovery or a worker waits for room in a full queue, and everything else has ended or
waits for them. -/
structure Jammed (r : Run) (d : Discovery) (c : Consumption) : Prop where
  live : r.hub.cancelled = false
  workers : ∀ x ∈ r.workers, x.Over ∨ x.Held r.hub
  consumption : c.Over ∨ c.Held r.hub
  supervisor : r.supervisor.phase = .watching ∧ d.Held r.hub ∨
    r.supervisor.phase = .awaitingWorkers ∧ (∃ x ∈ r.workers, x.Held r.hub) ∧
      ∀ i x, r.workers[i]? = some x → x.Over → i ∈ r.supervisor.joined

theorem not_held_of_over {x : Worker} {hub : Hub} (finished : x.Over) : ¬x.Held hub := by
  rintro ⟨⟨set, at_⟩, _⟩
  obtain ⟨e, ended⟩ := finished
  rw [ended] at at_
  cases at_

/-- Who waits for room in the artifact queue waits in vain: consumption has ended. -/
theorem Jammed.consumption_over (jam : Jammed r d c) (coherent : Coherent s r d c)
    (positive : 0 < s.queueCapacity) {x : Worker} (held : x.Held r.hub) : c.Over := by
  refine jam.consumption.resolve_right ?_
  rintro ⟨_, empty, _⟩
  obtain ⟨_, _, _, full⟩ := held
  rw [Queue.size, empty, coherent.fits.artifacts_capacity] at full
  exact absurd full (Nat.not_le_of_lt positive)

theorem Jammed.supervisor_waits (jam : Jammed r d c) (order : InOrder r d c) :
    ¬Supervises r d c r' d' c' := by
  intro h
  obtain ⟨phase, ⟨s, rest, at_⟩, _⟩ | ⟨phase, ⟨x, mem, held⟩, joined⟩ := jam.supervisor
  · cases h with
    | discoveryOver e _ ended => rw [ended] at at_; cases at_
    | interrupted _ cancelled => rw [jam.live] at cancelled; contradiction
    | armed _ cancelled => rw [jam.live] at cancelled; contradiction
    | discoveryJoined _ phase' | discoveryExpired phase' | workerJoined _ _ _ phase'
    | workersGone _ phase' | workersExpired phase' | consumptionJoined _ _ phase'
    | consumptionExpired _ phase' =>
        rw [phase] at phase'
        cases phase'
  · cases h with
    | workerJoined i y e _ unseen at_ ended => exact unseen (joined i y at_ ⟨e, ended⟩)
    | workersGone _ _ all => exact not_held_of_over (order.over_of_all_joined all x mem).1 held
    | workersExpired _ _ now =>
        rw [order.undue jam.live] at now
        cases now
    | armed _ cancelled => rw [jam.live] at cancelled; contradiction
    | discoveryOver _ phase' | interrupted phase' | discoveryJoined _ phase'
    | discoveryExpired phase' | consumptionJoined _ _ phase' | consumptionExpired _ phase' =>
        rw [phase] at phase'
        cases phase'

theorem Launched.mem_dues (launched : Launched r d c) (t : Nat) :
    t ∈ r.dues ↔ r.supervisorDue = some t ∨ d.nextDue = some t ∨ c.nextDue = some t ∨
      ∃ x ∈ r.workers, x.nextDue = some t := by
  simp [dues, launched.discovery, launched.consumption, launched.lone, launched.collector, or_assoc,
    @eq_comm _ (some t)]

theorem Jammed.not_due (jam : Jammed r d c) (coherent : Coherent s r d c) {t : Nat} :
    t ∉ r.dues := by
  rw [coherent.launched.mem_dues]
  rintro (due | due | due | ⟨x, mem, due⟩)
  · obtain ⟨phase, _⟩ | ⟨phase, _⟩ := jam.supervisor
    · simp [supervisorDue, phase] at due
    · simp [supervisorDue, phase, coherent.order.undue jam.live] at due
  · obtain ⟨_, ⟨s, rest, at_⟩, _⟩ | ⟨phase, _⟩ := jam.supervisor
    · simp [Discovery.nextDue, at_] at due
    · obtain ⟨e, at_⟩ := coherent.order.discovery_over (by rw [phase]; rfl)
      simp [Discovery.nextDue, at_] at due
  · obtain ⟨e, at_⟩ | ⟨at_, _⟩ := jam.consumption <;> simp [Consumption.nextDue, at_] at due
  · obtain ⟨e, at_⟩ | ⟨⟨set, at_⟩, _⟩ := jam.workers x mem <;> simp [Worker.nextDue, at_] at due

theorem Jammed.still (jam : Jammed r d c) (order : InOrder r d c) :
    ¬Works w r d c r' d' c' := by
  intro h
  cases h with
  | discovery _ _ moved =>
      obtain ⟨_, held⟩ | ⟨phase, _⟩ := jam.supervisor
      · exact moved.not_held held
      · exact moved.not_over (order.discovery_over (by rw [phase]; rfl))
  | worker i x x' _ at_ moved =>
      obtain finished | held := jam.workers x (List.mem_of_getElem? at_)
      · exact moved.not_over finished
      · exact moved.not_held held
  | consumption _ _ moved =>
      obtain finished | held := jam.consumption
      · exact moved.not_over finished
      · exact moved.not_held held
  | supervisor supervises => exact jam.supervisor_waits order supervises

theorem Jammed.stuck (jam : Jammed r d c) (coherent : Coherent s r d c) : ¬Move w r r' := by
  refine coherent.launched.stuck (fun time _ _ _ => ?_) fun _ => jam.not_due coherent
  have late : Jammed (setClock time r) d c := { jam with }
  exact late.still (coherent.order.clock time)

/-- All that a run that cannot go on has in common: no task can make a step, and every point
in time that a task waits for has come. -/
structure Quiet (w : World) (r : Run) : Prop where
  task : ∀ a, r.stepTask w a = none
  due : ∀ t ∈ r.dues, t ≤ r.hub.now

theorem stepTask_of_isQuiet (quiet : r.isQuiet w) (a : Action) : r.stepTask w a = none := by
  by_cases listed : a ∈ r.taskActions
  · simpa using List.all_eq_true.mp quiet a listed
  · cases a with
    | supervisor signal => cases signal <;> simp [taskActions] at listed
    | worker i =>
        have beyond : r.workers[i]? = none := by
          simpa [taskActions] using listed
        simp [stepTask, stepWorker, beyond]
    | discovery | lone | consumption | collector => simp [taskActions] at listed
    | cancel | tick => simp [stepTask]

theorem quiet_of_no_move (stuck : ¬∃ r', Move w r r') : Quiet w r where
  task a := by
    cases stepped : r.stepTask w a with
    | none => rfl
    | some r' => exact absurd ⟨r', .task a r.hub.now (Nat.le_refl _) stepped⟩ stuck
  due t mem := Nat.le_of_not_lt fun later => stuck ⟨_, .wait t t mem later (Nat.le_refl t)⟩

theorem Quiet.no_due (quiet : Quiet w r) {due : Option Nat} (timed : due.isSome)
    (mem : ∀ t, due = some t → t ∈ r.dues) : isDue r.hub.now due := by
  obtain ⟨t, rfl⟩ := Option.isSome_iff_exists.mp timed
  exact decide_eq_true (quiet.due t (mem t rfl))

theorem Quiet.discovery (quiet : Quiet w r) (launched : Launched r d c)
    (listing : ∀ due reply, d.point = .listing due reply → due.isSome) :
    d.Held r.hub ∨ d.Over := by
  have none : d.step w r.hub = none := by
    cases stepped : d.step w r.hub with
    | none => rfl
    | some next =>
        have := quiet.task .discovery
        simp [stepTask, stepDiscovery, launched.discovery, stepped] at this
  obtain ⟨due, reply, at_, later⟩ | ⟨due, at_, later⟩ | held | finished :=
    Discovery.step_eq_none none
  · have now := quiet.no_due (listing due reply at_) fun t eq =>
      (launched.mem_dues t).mpr (.inr (.inl (by simp [Discovery.nextDue, at_, eq])))
    rw [later] at now
    contradiction
  · have now := quiet.due due
      ((launched.mem_dues due).mpr (.inr (.inl (by simp [Discovery.nextDue, at_]))))
    omega
  · exact .inl held
  · exact .inr finished

theorem Quiet.consumption (quiet : Quiet w r) (launched : Launched r d c)
    (awaits : Awaits (fun timed _ => timed) (fun timed _ => timed) r c) :
    c.Held r.hub ∨ c.Over := by
  have none : c.step w r.hub = none := by
    cases stepped : c.step w r.hub with
    | none => rfl
    | some next =>
        have := quiet.task .consumption
        simp [stepTask, stepConsumption, launched.consumption, stepped] at this
  obtain ⟨set, due, reply, at_, later⟩ | held | finished := Consumption.step_eq_none none
  · have now := quiet.no_due (awaits.consumption set due reply at_) fun t eq =>
      (launched.mem_dues t).mpr (.inr (.inr (.inl (by
        obtain at_ | at_ := at_ <;> simp [Consumption.nextDue, at_, eq]))))
    rw [later] at now
    contradiction
  · exact .inl held
  · exact .inr finished

theorem Quiet.step_worker (quiet : Quiet w r) {x : Worker} (mem : x ∈ r.workers) :
    x.step w r.settings r.hub = none := by
  obtain ⟨i, lt, rfl⟩ := List.mem_iff_getElem.mp mem
  cases stepped : r.workers[i].step w r.settings r.hub with
  | none => rfl
  | some next =>
      have := quiet.task (.worker i)
      simp [stepTask, stepWorker, List.getElem?_eq_getElem lt, stepped] at this

/-- No decoder call is left in a run that cannot go on, so every slot is free. -/
theorem Quiet.not_calling (quiet : Quiet w r) (launched : Launched r d c)
    (awaits : Awaits (fun timed _ => timed) (fun timed _ => timed) r c) {x : Worker}
    (mem : x ∈ r.workers) {item : WorkItem} {due : Option Nat} {heeds : Bool}
    {reply : Reply Fault Decoded} : x.point ≠ .busy (.calling item due heeds reply) := by
  intro busy
  have now := quiet.no_due (awaits.workers x mem item due heeds reply busy) fun t eq =>
    (launched.mem_dues t).mpr (.inr (.inr (.inr ⟨x, mem, by
      simp [Worker.nextDue, busy, Attempts.nextDue, eq]⟩)))
  have none := quiet.step_worker mem
  simp only [Worker.step, busy, Option.map_eq_none_iff] at none
  obtain ⟨_, at_, _⟩ | ⟨_, _, _, _, at_, later⟩ | ⟨_, _, at_, _⟩ | ⟨_, at_⟩ :=
    Attempts.step_eq_none none <;> cases at_
  rw [later] at now
  contradiction

theorem Quiet.worker (quiet : Quiet w r) (coherent : Coherent s r d c)
    (awaits : Awaits (fun timed _ => timed) (fun timed _ => timed) r c) {x : Worker}
    (mem : x ∈ r.workers) :
    (x.point = .idle ∧ r.hub.cancelled = false ∧ r.hub.work.buffer = [] ∧
      r.hub.work.closed = false) ∨ x.Held r.hub ∨ x.Over := by
  obtain idle | ⟨a, busy, none⟩ | held | finished := Worker.step_eq_none (quiet.step_worker mem)
  · exact .inl idle
  · exfalso
    obtain ⟨item, rfl, taken⟩ | ⟨item, due, heeds, reply, rfl, _⟩ | ⟨item, due, rfl, later⟩ |
      ⟨outcome, rfl⟩ := Attempts.step_eq_none none
    · have free : r.workers.countP Worker.isCalling = 0 := by
        apply List.countP_eq_zero.mpr
        intro y mem' calling
        unfold Worker.isCalling at calling
        split at calling
        · next a busy =>
            cases a with
            | calling => exact quiet.not_calling coherent.launched awaits mem' busy
            | waiting | pausing | ended => cases calling
        · cases calling
      have slots := coherent.fits.slots
      omega
    · exact quiet.not_calling coherent.launched awaits mem busy
    · have now := quiet.due due ((coherent.launched.mem_dues due).mpr (.inr (.inr (.inr ⟨x, mem, by
        simp [Worker.nextDue, busy, Attempts.nextDue]⟩))))
      omega
    · exact coherent.fits.busy x mem outcome busy
  · exact .inr (.inl held)
  · exact .inr (.inr finished)

theorem joined_of_nextEnded_eq_none {joined : List Nat} {i : Nat} {xs : List Worker}
    (h : nextEnded joined i xs = none) {k : Nat} {x : Worker} (at_ : xs[k]? = some x)
    (finished : x.Over) : i + k ∈ joined := by
  induction xs generalizing i k with
  | nil => simp at at_
  | cons y ys ih =>
      unfold nextEnded at h
      cases k with
      | zero =>
          obtain rfl : y = x := by simpa using at_
          obtain ⟨e, ended⟩ := finished
          simp only [Worker.ending?, ended] at h
          split at h
          · next seen => simpa using seen
          · cases h
      | succ k =>
          have later : nextEnded joined (i + 1) ys = none := by
            split at h
            · split at h
              · exact h
              · cases h
            · exact h
          rw [List.getElem?_cons_succ] at at_
          have := ih later at_
          rwa [Nat.add_assoc, Nat.add_comm 1 k] at this

theorem joined_of_still (still : ∀ a, r.stepTask w a = none)
    (phase : r.supervisor.phase = .awaitingWorkers) {i : Nat} {x : Worker}
    (at_ : r.workers[i]? = some x) (finished : x.Over) : i ∈ r.supervisor.joined := by
  have none := still (.supervisor .workerEnded)
  simp only [stepTask, supervise, phase, Option.map_eq_none_iff] at none
  simpa using joined_of_nextEnded_eq_none none at_ finished

/-- While the supervisor waits for the workers and cannot go on, not all have ended. -/
theorem InOrder.somebody_works (order : InOrder r d c) (still : ∀ a, r.stepTask w a = none)
    (phase : r.supervisor.phase = .awaitingWorkers) : ∃ x ∈ r.workers, ¬x.Over := by
  by_contra nobody
  have finished (x : Worker) (mem : x ∈ r.workers) : x.Over := by
    by_contra works
    exact nobody ⟨x, mem, works⟩
  -- all workers have ended, so all are joined, and the supervisor goes on
  have within : List.range r.workers.length ⊆ r.supervisor.joined := by
    intro i mem
    have lt := List.mem_range.mp mem
    exact joined_of_still still phase (List.getElem?_eq_getElem lt) (finished _ (List.getElem_mem lt))
  have many := (List.subperm_of_subset List.nodup_range within).length_le
  have few := (List.subperm_of_subset order.joined_nodup order.joined_within).length_le
  rw [List.length_range] at many few
  have none := still (.supervisor .workersGone)
  simp [stepTask, supervise, phase, Nat.le_antisymm few many] at none

/-- In the wait for the workers a run that cannot go on has one that waits for room. -/
theorem Quiet.worker_held (quiet : Quiet w r) (order : InOrder r d c)
    (phase : r.supervisor.phase = .awaitingWorkers)
    (workers : ∀ x ∈ r.workers, x.Held r.hub ∨ x.Over) : ∃ x ∈ r.workers, x.Held r.hub := by
  obtain ⟨x, mem, works⟩ := order.somebody_works quiet.task phase
  exact ⟨x, mem, (workers x mem).resolve_right works⟩

/-- In the wait for the workers a run that cannot go on is not cancelled: the deadline would
end it. -/
theorem Quiet.live (quiet : Quiet w r) (coherent : Coherent s r d c)
    (phase : r.supervisor.phase = .awaitingWorkers) (held : ∃ x ∈ r.workers, x.Held r.hub) :
    r.hub.cancelled = false := by
  cases cancelled : r.hub.cancelled with
  | false => rfl
  | true =>
      exfalso
      have unexpired : r.supervisor.expired = false := by
        apply Bool.eq_false_iff.mpr
        intro expired
        obtain ⟨x, mem, held⟩ := held
        exact not_held_of_over (coherent.order.workers_over (.inl expired) x mem) held
      cases deadline : r.supervisor.deadline with
      | none =>
          have none := quiet.task (.supervisor .arm)
          simp [stepTask, supervise, phase, cancelled, deadline] at none
      | some t =>
          have now : isDue r.hub.now (some t) := quiet.no_due rfl fun t' eq =>
            (coherent.launched.mem_dues t').mpr (.inl (by
              simp [supervisorDue, phase, unexpired, deadline, Option.some.inj eq]))
          have none := quiet.task (.supervisor .deadline)
          simp [stepTask, supervise, phase, unexpired, deadline, now] at none

/-- A launched run that has not stopped, whose calls all end, is jammed if it cannot go on. -/
theorem Quiet.jammed (quiet : Quiet w r) (coherent : Coherent s r d c)
    (positive : 0 < s.queueCapacity)
    (listing : ∀ due reply, d.point = .listing due reply → due.isSome)
    (awaits : Awaits (fun timed _ => timed) (fun timed _ => timed) r c)
    (unstopped : r.supervisor.phase ≠ .stopped) : Jammed r d c := by
  have order := coherent.order
  have consumption := quiet.consumption coherent.launched awaits
  have workers (busy : r.hub.work.buffer = [] → r.hub.work.closed) (x : Worker)
      (mem : x ∈ r.workers) : x.Held r.hub ∨ x.Over := by
    apply (quiet.worker coherent awaits mem).resolve_left
    rintro ⟨_, _, empty, open_⟩
    rw [busy empty] at open_
    contradiction
  have signal (a : Signal) : r.supervise a = none := quiet.task (.supervisor a)
  cases phase : r.supervisor.phase with
  | idle => exact absurd phase coherent.launched.phase.1
  | launching => exact absurd phase coherent.launched.phase.2
  | watching =>
      have unended := signal .discoveryEnded
      have uncancelled := signal .cancellation
      simp only [supervise, phase, coherent.launched.discovery, Option.bind_some,
        Option.map_eq_none_iff] at unended
      simp only [supervise, phase, ite_eq_right_iff, reduceCtorEq, imp_false,
        Bool.not_eq_true] at uncancelled
      have held : d.Held r.hub := by
        apply (quiet.discovery coherent.launched listing).resolve_right
        rintro ⟨e, finished⟩
        simp [Discovery.ending?, finished] at unended
      -- the work queue is full, so no worker is idle
      have workers : ∀ x ∈ r.workers, x.Held r.hub ∨ x.Over := by
        apply workers
        intro empty
        obtain ⟨_, _, _, _, full⟩ := held
        rw [Queue.size, empty, coherent.fits.work_capacity] at full
        exact absurd full (Nat.not_le_of_lt positive)
      exact ⟨uncancelled, fun x mem => (workers x mem).symm, consumption.symm, .inl ⟨phase, held⟩⟩
  | awaitingDiscovery =>
      have now := quiet.no_due (order.interrupted phase) fun t eq =>
        (coherent.launched.mem_dues t).mpr (.inl (by simp [supervisorDue, phase, eq]))
      have undue := signal .deadline
      simp [supervise, phase, now] at undue
  | awaitingWorkers =>
      have workers := workers fun _ => order.work_closed (by simp [phase])
      have held := quiet.worker_held order phase workers
      exact ⟨quiet.live coherent phase held, fun x mem => (workers x mem).symm, consumption.symm,
        .inr ⟨phase, held, fun i x at_ finished => joined_of_still quiet.task phase at_ finished⟩⟩
  | awaitingConsumption limit =>
      have unended := signal .consumptionEnded
      simp only [supervise, phase, coherent.launched.consumption, Option.bind_some,
        Option.map_eq_none_iff] at unended
      obtain ⟨_, _, open_⟩ | ⟨e, finished⟩ := consumption
      · rw [order.artifacts_closed, phase] at open_
        cases open_
      · simp [Consumption.ending?, finished] at unended
  | stopped => exact absurd phase unstopped

theorem Coherent.moves_or_jammed (coherent : Coherent s r d c) (positive : 0 < s.queueCapacity)
    (listing : ∀ due reply, d.point = .listing due reply → due.isSome)
    (awaits : Awaits (fun timed _ => timed) (fun timed _ => timed) r c)
    (unstopped : r.supervisor.phase ≠ .stopped) : (∃ r', Move w r r') ∨ Jammed r d c := by
  by_cases moves : ∃ r', Move w r r'
  · exact .inl moves
  · exact .inr ((quiet_of_no_move moves).jammed coherent positive listing awaits unstopped)

end Run

end DecodePipeline
