import DecodePipeline.Proofs.Run.Change
import Mathlib.Data.List.Perm.Basic

/-!
The order in which a run is taken down. The work queue is closed before the workers are
waited for and the artifact queue before consumption is; each wait is over only when the
tasks that it is for have ended; and the queues and the slots keep within their bounds on
the way.
-/

namespace DecodePipeline

@[simp]
def Supervisor.Phase.pastDiscovery : Supervisor.Phase → Bool
  | .awaitingWorkers | .awaitingConsumption _ | .stopped => true
  | .idle | .launching | .watching | .awaitingDiscovery => false

@[simp]
def Supervisor.Phase.pastWorkers : Supervisor.Phase → Bool
  | .awaitingConsumption _ | .stopped => true
  | .idle | .launching | .watching | .awaitingDiscovery | .awaitingWorkers => false

theorem Supervisor.Phase.pastDiscovery_of_pastWorkers {phase : Supervisor.Phase}
    (past : phase.pastWorkers) : phase.pastDiscovery := by
  cases phase with
  | awaitingConsumption | stopped => rfl
  | idle | launching | watching | awaitingDiscovery | awaitingWorkers => cases past

theorem exists_perm_set {α : Type} {l : List α} {i : Nat} {x : α} (h : l[i]? = some x) (y : α) :
    ∃ rest, l.Perm (x :: rest) ∧ (l.set i y).Perm (y :: rest) := by
  obtain ⟨lt, rfl⟩ := List.getElem?_eq_some_iff.mp h
  refine ⟨l.eraseIdx i, ?_, List.set_perm_cons_eraseIdx lt y⟩
  exact (List.getElem_cons_eraseIdx_perm lt).symm

namespace Worker

theorem over_aborted (x : Worker) : x.aborted.Over := by
  simp only [aborted]
  split
  · next e point => exact ⟨e, point⟩
  · exact ⟨.aborted, rfl⟩

theorem aborted_ne_busy (x : Worker) (a : Attempts) : x.aborted.point ≠ .busy a := by
  intro busy
  obtain ⟨e, ended⟩ := x.over_aborted
  rw [ended] at busy
  cases busy

theorem aborted_of_over {x : Worker} (finished : x.Over) : x.aborted = x := by
  obtain ⟨e, point⟩ := finished
  simp [aborted, point]

theorem isCalling_of_over {x : Worker} (finished : x.Over) : x.isCalling = false := by
  obtain ⟨e, point⟩ := finished
  simp [isCalling, point]

end Worker

theorem Discovery.over_abort (d : Discovery) : d.abort.Over := by
  simp only [abort]
  split
  · next e point => exact ⟨e, point⟩
  · exact ⟨.aborted, rfl⟩

theorem Consumption.over_abort (c : Consumption) : c.abort.Over := by
  simp only [abort]
  split
  · next e point => exact ⟨e, point⟩
  · exact ⟨.aborted, rfl⟩

theorem Discovery.published_abort (d : Discovery) : d.abort.published = d.published := by
  simp only [abort]
  split <;> rfl

theorem Consumption.taken_abort (c : Consumption) : c.abort.taken = c.taken := by
  simp only [abort]
  split <;> rfl

namespace Run

variable {w : World} {s : Settings} {r r' : Run} {d d' : Discovery} {c c' : Consumption}

@[simp] theorem enter_phase (r : Run) (phase : Supervisor.Phase) :
    (r.enter phase).supervisor.phase = phase := rfl

@[simp] theorem drain_phase (r : Run) (phase : Supervisor.Phase) :
    (r.drain phase).supervisor.phase = phase := rfl

@[simp] theorem stop_phase (r : Run) : r.stop.supervisor.phase = .stopped := rfl

@[simp] theorem noted_phase (r : Run) (fault : Option Fault) (cancels : Bool) :
    (r.noted fault cancels).supervisor.phase = r.supervisor.phase := rfl

@[simp] theorem arm_phase (r : Run) : r.arm.supervisor.phase = r.supervisor.phase := rfl

theorem lifecycle_stopped : r.lifecycle = .stopped ↔ r.supervisor.phase = .stopped := by
  simp only [lifecycle]
  cases r.supervisor.phase <;> simp [Supervisor.Phase.lifecycle]

/-- What a reaction of the supervisor leaves as it is. Workers go on, or all of them are
ended. -/
structure Attended (r r' : Run) : Prop where
  settings : r'.settings = r.settings
  now : r'.hub.now = r.hub.now
  stats : r'.hub.stats = r.hub.stats
  scans : r'.hub.scans = r.hub.scans
  work : r'.hub.work.buffer = r.hub.work.buffer ∧ r'.hub.work.capacity = r.hub.work.capacity
  artifacts : r'.hub.artifacts.buffer = r.hub.artifacts.buffer ∧
    r'.hub.artifacts.capacity = r.hub.artifacts.capacity
  cancelled : r.hub.cancelled → r'.hub.cancelled
  work_closed : r.hub.work.closed → r'.hub.work.closed
  workers : r'.workers = r.workers ∧ r'.hub.slots = r.hub.slots ∨
    r'.supervisor.expired ∧ r'.workers = r.workers.map Worker.aborted ∧
      r'.hub.slots = r.hub.slots + r.workers.countP Worker.isCalling

theorem Supervises.attended (h : Supervises r d c r' d' c') : r.Attended r' := by
  cases h with
  | discoveryOver | interrupted =>
      exact ⟨rfl, rfl, rfl, rfl, ⟨rfl, rfl⟩, ⟨rfl, rfl⟩,
        by simp +contextual [noted, drain, enter, arm], fun _ => rfl, .inl ⟨rfl, rfl⟩⟩
  | discoveryJoined | workerJoined | consumptionJoined | workersGone | armed | consumptionExpired =>
      exact ⟨rfl, rfl, rfl, rfl, ⟨rfl, rfl⟩, ⟨rfl, rfl⟩,
        by simp +contextual [noted, enter, arm, stop, abortConsumption], id, .inl ⟨rfl, rfl⟩⟩
  | discoveryExpired | workersExpired =>
      rw [expire, abortWorkers_eq]
      exact ⟨rfl, rfl, rfl, rfl, ⟨rfl, rfl⟩, ⟨rfl, rfl⟩, id, id, .inr ⟨rfl, rfl, rfl⟩⟩

/-- The supervisor leaves discovery and consumption to themselves, or ends them. -/
theorem Supervises.tasks (h : Supervises r d c r' d' c') :
    (d' = d ∨ d' = d.abort) ∧ (c' = c ∨ c' = c.abort) := by
  cases h with
  | discoveryExpired => exact ⟨.inr rfl, .inl rfl⟩
  | consumptionExpired => exact ⟨.inl rfl, .inr rfl⟩
  | discoveryOver | interrupted | discoveryJoined | workerJoined | workersGone | workersExpired
  | armed | consumptionJoined => exact ⟨.inl rfl, .inl rfl⟩

theorem Supervises.published (h : Supervises r d c r' d' c') : d'.published = d.published := by
  obtain rfl | rfl := h.tasks.1
  · rfl
  · exact d.published_abort

theorem Supervises.taken (h : Supervises r d c r' d' c') : c'.taken = c.taken := by
  obtain rfl | rfl := h.tasks.2
  · rfl
  · exact c.taken_abort

/-- Only the clock moves the time. -/
theorem Works.now (h : Works w r d c r' d' c') : r'.hub.now = r.hub.now := by
  cases h with
  | discovery _ _ moved => exact moved.kept.now
  | worker _ _ _ _ _ moved => exact moved.kept.now
  | consumption _ _ moved => exact moved.kept.now
  | supervisor supervises => exact supervises.attended.now

/-- A run that is cancelled stays so. -/
theorem Works.cancelled (h : Works w r d c r' d' c') (cancelled : r.hub.cancelled) :
    r'.hub.cancelled := by
  cases h with
  | discovery _ _ moved => exact moved.kept.cancelled.trans cancelled
  | worker _ _ _ _ _ moved => exact moved.kept.cancelled.trans cancelled
  | consumption _ _ moved => exact moved.kept.cancelled.trans cancelled
  | supervisor supervises => exact supervises.attended.cancelled cancelled

/-- The bounds of a run: the capacities of its queues, the number of its workers and of its
slots; and that only polling rests, and no worker stays with attempts that are over. -/
structure Fits (s : Settings) (r : Run) (d : Discovery) : Prop where
  settings : r.settings = s
  mode : d.mode = s.mode
  maxItems : d.maxItems = s.maxItems
  crew : r.workers.length = s.workers
  work_capacity : r.hub.work.capacity = s.queueCapacity
  artifacts_capacity : r.hub.artifacts.capacity = s.queueCapacity
  work_size : r.hub.work.size ≤ r.hub.work.capacity
  artifacts_size : r.hub.artifacts.size ≤ r.hub.artifacts.capacity
  slots : r.hub.slots + r.workers.countP Worker.isCalling = max 1 s.workers
  rests : ∀ due, d.point = .resting due → s.mode ≠ .batch
  busy : ∀ x ∈ r.workers, ∀ outcome, x.point ≠ .busy (.ended outcome)

theorem fits_launch (s : Settings) (now : Nat) (cancelled : Bool) :
    Fits s (fresh s now cancelled).launch (firstDiscovery s) where
  settings := rfl
  mode := rfl
  maxItems := rfl
  crew := List.length_replicate
  work_capacity := rfl
  artifacts_capacity := rfl
  work_size := Nat.zero_le _
  artifacts_size := Nat.zero_le _
  slots := by
    have idle : (List.replicate s.workers ({} : Worker)).countP Worker.isCalling = 0 := by
      apply List.countP_eq_zero.mpr
      intro x mem
      obtain rfl := List.eq_of_mem_replicate mem
      simp [Worker.isCalling]
    exact congrArg (max 1 s.workers + ·) idle
  rests _ resting := absurd resting (by simp [firstDiscovery])
  busy x mem outcome := by
    obtain rfl := List.eq_of_mem_replicate mem
    simp

theorem countP_calling_aborted (xs : List Worker) :
    (xs.map Worker.aborted).countP Worker.isCalling = 0 := by
  apply List.countP_eq_zero.mpr
  intro x mem
  obtain ⟨y, _, rfl⟩ := List.mem_map.mp mem
  simp [Worker.isCalling_of_over y.over_aborted]

/-- A task that neither takes nor frees a slot keeps the bounds. -/
theorem Fits.hub (fits : Fits s r d) {hub : Hub} (kept : r.hub.Kept hub)
    (slots : hub.slots = r.hub.slots) : Fits s { r with hub } d :=
  { fits with
    work_capacity := kept.work_capacity.trans fits.work_capacity
    artifacts_capacity := kept.artifacts_capacity.trans fits.artifacts_capacity
    work_size := kept.work_size fits.work_size
    artifacts_size := kept.artifacts_size fits.artifacts_size
    slots := by rw [← fits.slots, ← slots] }

theorem Fits.discovery (fits : Fits s r d) {hub : Hub} (moved : d.Moves w r.hub hub d') :
    Fits s { r with hub, discovery := some d' } d' := by
  have bounds := fits.hub moved.kept moved.artifacts.2
  obtain ⟨mode, maxItems⟩ := moved.fixed
  exact
    { bounds with
      mode := mode.trans fits.mode
      maxItems := maxItems.trans fits.maxItems
      rests := by
        intro due resting
        cases moved with
        | rest interval _ polls => rw [← fits.mode, polls]; simp
        | scan | panic | firstScanFails | list | publish | giveUp | refused | complete | stop
        | wake => cases resting }

theorem Fits.worker (fits : Fits s r d) {i : Nat} {x x' : Worker} {hub : Hub}
    (at_ : r.workers[i]? = some x) (moved : x.Moves w r.settings r.hub hub x') :
    Fits s { r with hub, workers := r.workers.set i x' } d := by
  obtain ⟨rest, before, after⟩ := exists_perm_set at_ x'
  exact
    { fits with
      crew := by rw [← fits.crew]; exact List.length_set
      work_capacity := moved.kept.work_capacity.trans fits.work_capacity
      artifacts_capacity := moved.kept.artifacts_capacity.trans fits.artifacts_capacity
      work_size := moved.kept.work_size fits.work_size
      artifacts_size := moved.kept.artifacts_size fits.artifacts_size
      slots := by
        have slots := moved.slots
        have all := fits.slots
        rw [before.countP_eq, List.countP_cons] at all
        rw [after.countP_eq, List.countP_cons]
        change hub.slots + _ = _
        simp only [Bool.toNat, Bool.cond_eq_ite] at slots
        omega
      busy := by
        intro y mem outcome busy
        obtain old | rfl := List.mem_or_eq_of_mem_set mem
        · exact fits.busy y old outcome busy
        · cases moved with
          | attempt _ _ _ _ going => cases busy; cases going
          | leave | take | transformed | failed | abandon | panic | abandonSet | hand
          | refused => cases busy }

theorem fixed_of_tasks (tasks : d' = d ∨ d' = d.abort) :
    d'.mode = d.mode ∧ d'.maxItems = d.maxItems ∧
      ∀ due, d'.point = .resting due → d.point = .resting due := by
  obtain rfl | rfl := tasks
  · exact ⟨rfl, rfl, fun _ => id⟩
  · simp only [Discovery.abort]
    split <;> simp

theorem Fits.supervisor (fits : Fits s r d) (h : Supervises r d c r' d' c') : Fits s r' d' := by
  have attended := h.attended
  obtain ⟨mode, maxItems, resting⟩ := fixed_of_tasks h.tasks.1
  exact
    { settings := attended.settings.trans fits.settings
      mode := mode.trans fits.mode
      maxItems := maxItems.trans fits.maxItems
      work_capacity := attended.work.2.trans fits.work_capacity
      artifacts_capacity := attended.artifacts.2.trans fits.artifacts_capacity
      work_size := by
        rw [Queue.size, attended.work.1, attended.work.2]
        exact fits.work_size
      artifacts_size := by
        rw [Queue.size, attended.artifacts.1, attended.artifacts.2]
        exact fits.artifacts_size
      crew := by
        obtain ⟨workers, _⟩ | ⟨_, workers, _⟩ := attended.workers <;> simp [workers, fits.crew]
      slots := by
        obtain ⟨workers, slots⟩ | ⟨_, workers, slots⟩ := attended.workers
        · rw [workers, slots, fits.slots]
        · rw [workers, slots, countP_calling_aborted, Nat.add_zero, fits.slots]
      rests := fun due rests => fits.rests due (resting due rests)
      busy := by
        intro x mem outcome busy
        obtain ⟨same, _⟩ | ⟨_, ended, _⟩ := attended.workers
        · exact fits.busy x (same ▸ mem) outcome busy
        · rw [ended] at mem
          obtain ⟨y, _, rfl⟩ := List.mem_map.mp mem
          exact y.aborted_ne_busy _ busy }

theorem Fits.works (fits : Fits s r d) (h : Works w r d c r' d' c') : Fits s r' d' := by
  cases h with
  | discovery _ _ moved => exact fits.discovery moved
  | worker _ _ _ _ at_ moved => exact fits.worker at_ moved
  | consumption _ _ moved => exact { fits.hub moved.kept moved.work.2 with }
  | supervisor supervises => exact fits.supervisor supervises

/-- How far a run is taken down in each phase. Only a cancelled run has a deadline, and when
the deadline has passed all workers have ended; that a worker broke down is recorded when it
is joined. -/
structure InOrder (r : Run) (d : Discovery) (c : Consumption) : Prop where
  work_open : r.supervisor.phase = .watching → r.hub.work.closed → d.Over
  work_closed : r.supervisor.phase ≠ .watching → r.hub.work.closed
  discovery_over : r.supervisor.phase.pastDiscovery → d.Over
  artifacts_closed : r.hub.artifacts.closed = r.supervisor.phase.pastWorkers
  workers_over : (r.supervisor.expired ∨ r.supervisor.phase.pastWorkers) → ∀ x ∈ r.workers, x.Over
  consumption_over : r.supervisor.phase = .stopped → c.Over
  joined_nodup : r.supervisor.joined.Nodup
  joined_over : ∀ i ∈ r.supervisor.joined, ∃ x, r.workers[i]? = some x ∧ x.Over ∧
    (x.point = .ended .panicked → r.supervisor.firstFault.isSome)
  all_joined : r.supervisor.phase.pastWorkers → r.supervisor.joined.length = r.workers.length
  deadline : r.supervisor.deadline.isSome → r.hub.cancelled
  interrupted : r.supervisor.phase = .awaitingDiscovery → r.supervisor.deadline.isSome
  expired : r.supervisor.expired → r.supervisor.deadline.isSome
  limit : ∀ limit, r.supervisor.phase = .awaitingConsumption limit →
    limit.isSome = r.supervisor.expired
  consumption_left : ∀ n, c.point = .ended (.returned n) →
    r.hub.artifacts.closed ∧ r.hub.artifacts.buffer = []

theorem inOrder_launch (s : Settings) (now : Nat) (cancelled : Bool) :
    InOrder (fresh s now cancelled).launch (firstDiscovery s) (firstConsumption s) where
  work_open _ closed := absurd closed (by simp [launch, enter, fresh])
  work_closed phase := absurd rfl phase
  discovery_over past := absurd past (by simp [launch])
  artifacts_closed := rfl
  workers_over finished := absurd finished (by simp [launch, enter, fresh])
  consumption_over phase := absurd phase (by simp [launch])
  joined_nodup := List.nodup_nil
  joined_over _ mem := absurd mem (by simp [launch, enter, fresh])
  all_joined past := absurd past (by simp [launch])
  deadline set := absurd set (by simp [launch, enter, fresh])
  interrupted phase := absurd phase (by simp [launch])
  expired set := absurd set (by simp [launch, enter, fresh])
  limit _ phase := absurd phase (by simp [launch])
  consumption_left _ ended := absurd ended (by simp [firstConsumption])

theorem InOrder.discovery (order : InOrder r d c) {hub : Hub} (moved : d.Moves w r.hub hub d') :
    InOrder { r with hub, discovery := some d' } d' c := by
  have kept := moved.kept
  exact
    { order with
      work_open := by
        intro phase closed
        cases open_ : r.hub.work.closed with
        | false => exact moved.ended_of_closed open_ closed
        | true => exact absurd (order.work_open phase open_) moved.not_over
      work_closed := fun phase => kept.work_closed (order.work_closed phase)
      discovery_over := fun past => absurd (order.discovery_over past) moved.not_over
      artifacts_closed := kept.artifacts_closed.trans order.artifacts_closed
      deadline := fun set => kept.cancelled.trans (order.deadline set)
      consumption_left := by
        intro n ended
        rw [moved.artifacts.1]
        exact order.consumption_left n ended }

theorem InOrder.consumption (order : InOrder r d c) {hub : Hub} (moved : c.Moves w r.hub hub c') :
    InOrder { r with hub, consumption := some c' } d c' := by
  have kept := moved.kept
  exact
    { order with
      work_open := fun phase closed => order.work_open phase (by rwa [← moved.work.1])
      work_closed := fun phase => kept.work_closed (order.work_closed phase)
      artifacts_closed := kept.artifacts_closed.trans order.artifacts_closed
      consumption_over := fun phase => absurd (order.consumption_over phase) moved.not_over
      deadline := fun set => kept.cancelled.trans (order.deadline set)
      consumption_left := by
        intro n ended
        cases moved with
        | leave _ closed buffer => exact ⟨closed, buffer⟩
        | take | reject | reset | offer | offerAfterReset | panic | refuse | accept => cases ended }

/-- A worker that was joined has ended, so it is not one that steps. -/
theorem InOrder.unjoined (order : InOrder r d c) {i : Nat} {x : Worker}
    (at_ : r.workers[i]? = some x) (going : ¬x.Over) : i ∉ r.supervisor.joined := by
  intro mem
  obtain ⟨y, at_y, finished, _⟩ := order.joined_over i mem
  rw [at_] at at_y
  obtain rfl := Option.some.inj at_y
  exact going finished

theorem InOrder.worker (order : InOrder r d c) {i : Nat} {x x' : Worker} {hub : Hub}
    (at_ : r.workers[i]? = some x) (moved : x.Moves w r.settings r.hub hub x') :
    InOrder { r with hub, workers := r.workers.set i x' } d c := by
  have kept := moved.kept
  have stepped : x ∈ r.workers := List.mem_of_getElem? at_
  exact
    { order with
      work_open := fun phase closed => order.work_open phase (by rwa [← moved.work.1])
      work_closed := fun phase => kept.work_closed (order.work_closed phase)
      artifacts_closed := kept.artifacts_closed.trans order.artifacts_closed
      workers_over := fun finished => absurd (order.workers_over finished x stepped) moved.not_over
      joined_over := by
        intro j mem
        obtain ⟨y, at_j, finished, recorded⟩ := order.joined_over j mem
        have other : i ≠ j := fun eq => order.unjoined at_ moved.not_over (eq ▸ mem)
        exact ⟨y, (List.getElem?_set_ne other).trans at_j, finished, recorded⟩
      all_joined := fun past => (order.all_joined past).trans List.length_set.symm
      deadline := fun set => kept.cancelled.trans (order.deadline set)
      consumption_left := by
        intro n ended
        obtain ⟨closed, buffer⟩ := order.consumption_left n ended
        refine ⟨kept.artifacts_closed.trans closed, ?_⟩
        exact absurd (order.workers_over (.inr (order.artifacts_closed ▸ closed)) x stepped)
          moved.not_over }

/-- The artifact queue is not closed before the last worker has made its last step. -/
theorem InOrder.artifacts_open (order : InOrder r d c) {i : Nat} {x x' : Worker} {hub : Hub}
    (at_ : r.workers[i]? = some x) (moved : x.Moves w s r.hub hub x') :
    r.hub.artifacts.closed = false := by
  rw [order.artifacts_closed]
  apply Bool.eq_false_iff.mpr
  intro past
  exact moved.not_over (order.workers_over (.inr past) x (List.mem_of_getElem? at_))

theorem InOrder.noted (order : InOrder r d c) (fault : Option Fault) (cancels : Bool) :
    InOrder (r.noted fault cancels) d c :=
  { order with
    joined_over := by
      intro i mem
      obtain ⟨x, at_, finished, recorded⟩ := order.joined_over i mem
      refine ⟨x, at_, finished, ?_⟩
      intro panicked
      obtain ⟨first, eq⟩ := Option.isSome_iff_exists.mp (recorded panicked)
      simp [Run.noted, eq]
    deadline := fun set => by simp [Run.noted, order.deadline set] }

/-- The wait for discovery begins, or when discovery has ended the wait for the workers. -/
theorem InOrder.drain (order : InOrder r d c) {phase : Supervisor.Phase}
    (before : r.supervisor.phase.pastWorkers = false)
    (waits : phase = .awaitingDiscovery ∧ r.supervisor.deadline.isSome ∨
      phase = .awaitingWorkers ∧ d.Over) :
    InOrder (r.drain phase) d c := by
  have after : phase.pastWorkers = false := by
    obtain ⟨rfl, _⟩ | ⟨rfl, _⟩ := waits <;> rfl
  exact
    { order with
      work_open := by
        rintro rfl
        simp at waits
      work_closed := fun _ => rfl
      discovery_over := by
        intro past
        obtain ⟨rfl, _⟩ | ⟨_, finished⟩ := waits
        · cases past
        · exact finished
      artifacts_closed := order.artifacts_closed.trans (before.trans after.symm)
      workers_over := by
        intro finished
        rw [drain_phase, after] at finished
        exact order.workers_over (.inl (finished.resolve_right Bool.false_ne_true))
      consumption_over := by
        rintro rfl
        cases after
      all_joined := by
        intro past
        rw [drain_phase, after] at past
        cases past
      interrupted := by
        rintro rfl
        exact (waits.resolve_right (by simp)).2
      limit := by
        rintro limit rfl
        cases after }

theorem enter_eq_drain (closed : r.hub.work.closed) (phase : Supervisor.Phase) :
    r.enter phase = r.drain phase := by
  have same : r.hub.work.close = r.hub.work := by
    rw [Queue.close, ← closed]
  simp only [Run.drain]
  rw [same]
  rfl

theorem InOrder.arm (order : InOrder r d c) (cancelled : r.hub.cancelled) : InOrder r.arm d c :=
  { order with
    deadline := fun _ => cancelled
    interrupted := fun _ => rfl
    expired := fun _ => rfl }

theorem InOrder.expire (order : InOrder r d c) (phase : r.supervisor.phase = .awaitingWorkers)
    (set : r.supervisor.deadline.isSome) : InOrder r.expire d c := by
  rw [Run.expire, abortWorkers_eq]
  exact
    { order with
      workers_over := by
        intro _ x mem
        obtain ⟨y, _, rfl⟩ := List.mem_map.mp mem
        exact y.over_aborted
      joined_over := by
        intro i mem
        obtain ⟨x, at_, finished, recorded⟩ := order.joined_over i mem
        refine ⟨x, ?_, finished, recorded⟩
        simp [at_, Worker.aborted_of_over finished]
      all_joined := fun past => by simp [phase] at past
      expired := fun _ => set
      limit := fun _ phase' => by simp [phase] at phase' }

theorem InOrder.stop (order : InOrder r d c) (past : r.supervisor.phase.pastWorkers)
    (finished : c.Over) : InOrder r.stop d c :=
  { order with
    work_open := fun phase => by simp at phase
    work_closed := fun _ => order.work_closed fun phase => by simp [phase] at past
    discovery_over := fun _ =>
      order.discovery_over (Supervisor.Phase.pastDiscovery_of_pastWorkers past)
    artifacts_closed := order.artifacts_closed.trans past
    workers_over := fun _ => order.workers_over (.inr past)
    consumption_over := fun _ => finished
    all_joined := fun _ => order.all_joined past
    interrupted := fun phase => by simp at phase
    limit := fun _ phase => by simp at phase }

theorem InOrder.undue (order : InOrder r d c) (live : r.hub.cancelled = false) :
    r.supervisor.deadline = none := by
  cases deadline : r.supervisor.deadline with
  | none => rfl
  | some due =>
      have cancelled := order.deadline (by rw [deadline]; rfl)
      rw [live] at cancelled
      contradiction

theorem InOrder.joined_within (order : InOrder r d c) :
    r.supervisor.joined ⊆ List.range r.workers.length := by
  intro i joined
  obtain ⟨_, at_, _⟩ := order.joined_over i joined
  exact List.mem_range.mpr (List.getElem?_eq_some_iff.mp at_).1

theorem InOrder.joined_of_all_joined (order : InOrder r d c)
    (all : r.supervisor.joined.length = r.workers.length) {i : Nat} (lt : i < r.workers.length) :
    i ∈ r.supervisor.joined := by
  have fewer := List.subperm_of_subset order.joined_nodup order.joined_within
  have perm : r.supervisor.joined.Perm (List.range r.workers.length) :=
    fewer.perm_of_length_le (by simp [all])
  exact perm.mem_iff.mpr (List.mem_range.mpr lt)

/-- So all have ended, and what they broke down with is recorded. -/
theorem InOrder.over_of_all_joined (order : InOrder r d c)
    (all : r.supervisor.joined.length = r.workers.length) :
    ∀ x ∈ r.workers, x.Over ∧
      (x.point = .ended .panicked → r.supervisor.firstFault.isSome) := by
  intro x mem
  obtain ⟨i, lt, rfl⟩ := List.mem_iff_getElem.mp mem
  obtain ⟨y, at_, finished⟩ := order.joined_over i (order.joined_of_all_joined all lt)
  rw [List.getElem?_eq_getElem lt] at at_
  exact Option.some.inj at_ ▸ finished

/-- The wait for the workers begins with discovery ended from outside, and they are ended as well. -/
theorem InOrder.expire_discovery (order : InOrder r d c)
    (phase : r.supervisor.phase = .awaitingDiscovery) :
    InOrder (r.enter .awaitingWorkers).abortDiscovery.expire d.abort c := by
  rw [enter_eq_drain (order.work_closed (by simp [phase]))]
  have aborted : InOrder r d.abort c :=
    { order with
      work_open := fun _ _ => d.over_abort
      discovery_over := fun _ => d.over_abort }
  have entered := aborted.drain (by rw [phase]; rfl) (.inr ⟨rfl, d.over_abort⟩)
  exact InOrder.expire (r := (r.drain .awaitingWorkers).abortDiscovery) { entered with } rfl
    (order.interrupted phase)

theorem InOrder.join (order : InOrder r d c) {i : Nat} {x : Worker} {e : Ending Nat}
    (phase : r.supervisor.phase = .awaitingWorkers) (unseen : i ∉ r.supervisor.joined)
    (at_ : r.workers[i]? = some x) (ended : x.point = .ended e) :
    InOrder
      ({ r with supervisor := { r.supervisor with joined := i :: r.supervisor.joined } }.noted
        (endingFault "transform worker" e) (endingFault "transform worker" e).isSome) d c := by
  refine
    { order with
      joined_nodup := List.nodup_cons.mpr ⟨unseen, order.joined_nodup⟩
      joined_over := ?_
      all_joined := fun past => by simp [phase] at past
      deadline := fun set => by simp [Run.noted, order.deadline set] }
  intro j mem
  obtain rfl | mem := List.mem_cons.mp mem
  · refine ⟨x, at_, ⟨e, ended⟩, ?_⟩
    intro panicked
    obtain rfl : e = .panicked := Worker.Point.ended.inj (ended.symm.trans panicked)
    simp [Run.noted, endingFault]
  · obtain ⟨y, at_y, finished, recorded⟩ := order.joined_over j mem
    refine ⟨y, at_y, finished, ?_⟩
    intro panicked
    obtain ⟨first, eq⟩ := Option.isSome_iff_exists.mp (recorded panicked)
    simp [Run.noted, eq]

/-- The wait for consumption begins when all workers have been joined. -/
theorem InOrder.await_consumption (order : InOrder r d c) {limit : Option Nat}
    (phase : r.supervisor.phase = .awaitingWorkers)
    (all : r.supervisor.joined.length = r.workers.length)
    (limited : limit.isSome = r.supervisor.expired) :
    InOrder
      { r.enter (.awaitingConsumption limit) with
        hub := { r.hub with artifacts := r.hub.artifacts.close } } d c :=
  { order with
    work_open := fun phase' => by simp at phase'
    work_closed := fun _ => order.work_closed (by simp [phase])
    discovery_over := fun _ => order.discovery_over (by simp [phase])
    artifacts_closed := rfl
    workers_over := fun _ x mem => (order.over_of_all_joined all x mem).1
    consumption_over := fun phase' => by simp at phase'
    all_joined := fun _ => all
    interrupted := fun phase' => by simp at phase'
    limit := by
      intro limit' phase'
      obtain rfl : limit = limit' := by simpa using phase'
      exact limited
    consumption_left := fun n ended => ⟨rfl, (order.consumption_left n ended).2⟩ }

theorem InOrder.abort_consumption (order : InOrder r d c) :
    InOrder r.abortConsumption d c.abort :=
  { order with
    consumption_over := fun _ => c.over_abort
    consumption_left := by
      intro n ended
      apply order.consumption_left n
      unfold Consumption.abort at ended
      split at ended
      · next e point => exact ended
      · simp [Consumption.cutOff] at ended }

theorem InOrder.supervisor (order : InOrder r d c) (h : Supervises r d c r' d' c') :
    InOrder r' d' c' := by
  cases h with
  | discoveryOver e phase ended =>
      exact (order.drain (by rw [phase]; rfl) (.inr ⟨rfl, ⟨e, ended⟩⟩)).noted _ _
  | interrupted phase cancelled =>
      -- the deadline may as well be set first
      exact (order.arm cancelled).drain (by rw [arm_phase, phase]; rfl) (.inl ⟨rfl, rfl⟩)
  | discoveryJoined e phase ended =>
      rw [enter_eq_drain (order.work_closed (by simp [phase]))]
      exact (order.drain (by rw [phase]; rfl) (.inr ⟨rfl, ⟨e, ended⟩⟩)).noted _ _
  | discoveryExpired phase => exact order.expire_discovery phase
  | workerJoined _ _ _ phase unseen at_ ended => exact order.join phase unseen at_ ended
  | workersGone _ phase all limited => exact order.await_consumption phase all limited
  | workersExpired phase unexpired now =>
      refine order.expire phase ?_
      cases deadline : r.supervisor.deadline with
      | none => simp [deadline, isDue] at now
      | some due => rfl
  | armed phase cancelled unset => exact order.arm cancelled
  | consumptionJoined limit e phase ended =>
      exact (order.noted _ _).stop (by simp [phase]) ⟨e, ended⟩
  | consumptionExpired limit phase =>
      exact order.abort_consumption.stop (by simp [abortConsumption, phase]) c.over_abort

theorem InOrder.works (order : InOrder r d c) (h : Works w r d c r' d' c') : InOrder r' d' c' := by
  cases h with
  | discovery _ _ moved => exact order.discovery moved
  | worker i x x' _ at_ moved => exact order.worker at_ moved
  | consumption _ _ moved => exact order.consumption moved
  | supervisor supervises => exact order.supervisor supervises

theorem InOrder.cancel (order : InOrder r d c) : InOrder r.cancel d c :=
  { order with deadline := fun _ => rfl }

theorem InOrder.clock (order : InOrder r d c) (time : Nat) : InOrder (setClock time r) d c :=
  { order with }

structure Coherent (s : Settings) (r : Run) (d : Discovery) (c : Consumption) : Prop where
  launched : Launched r d c
  fits : Fits s r d
  order : InOrder r d c

theorem coherent_launch (s : Settings) (now : Nat) (cancelled : Bool) :
    Coherent s (fresh s now cancelled).launch (firstDiscovery s) (firstConsumption s) :=
  ⟨launched_launch s now cancelled, fits_launch s now cancelled, inOrder_launch s now cancelled⟩

theorem Coherent.works (coherent : Coherent s r d c) (h : Works w r d c r' d' c') :
    Coherent s r' d' c' :=
  ⟨h.launched coherent.launched, coherent.fits.works h, coherent.order.works h⟩

theorem Coherent.cancel (coherent : Coherent s r d c) : Coherent s r.cancel d c :=
  ⟨coherent.launched.cancel, { coherent.fits with }, coherent.order.cancel⟩

theorem Coherent.clock (coherent : Coherent s r d c) (time : Nat) :
    Coherent s (setClock time r) d c :=
  ⟨coherent.launched.clock time, { coherent.fits with }, coherent.order.clock time⟩

/-- The work queue is open for as long as discovery may publish. -/
theorem Coherent.work_open (coherent : Coherent s r d c) (live : r.hub.cancelled = false)
    (going : ¬d.Over) : r.hub.work.closed = false := by
  apply Bool.eq_false_iff.mpr
  intro closed
  cases phase : r.supervisor.phase with
  | idle => exact coherent.launched.phase.1 phase
  | launching => exact coherent.launched.phase.2 phase
  | watching => exact going (coherent.order.work_open phase closed)
  | awaitingDiscovery =>
      have set := coherent.order.interrupted phase
      simp [coherent.order.undue live] at set
  | awaitingWorkers | awaitingConsumption | stopped =>
      exact going (coherent.order.discovery_over (by rw [phase]; rfl))

theorem coherent_of_reached {r₀ : Run} (started : begin s = .ok r₀)
    (reached : Relation.ReflTransGen (Change w) r₀ r) :
    (∃ now cancelled, r = fresh s now cancelled) ∨ ∃ d c, Coherent s r d c := by
  have invariant := launched_induction (w := w) (P := fun r d c => Coherent s r d c)
    (coherent_launch s) Coherent.works Coherent.cancel
    (fun time _ coherent => coherent.clock time) started reached
  obtain unlaunched | ⟨d, c, _, coherent⟩ := invariant
  · exact .inl unlaunched
  · exact .inr ⟨d, c, coherent⟩

end Run

end DecodePipeline
