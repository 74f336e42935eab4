import DecodePipeline.Proofs.Run.Order
import Mathlib

/-!
What a run comes to when nobody disturbs it, whatever the order of its steps. Every step of
a task but the return of discovery to its next scan uses up work that is left, and time
passes only towards a point in time that a task waits for. So a run that can always go on
comes to an end.
-/

namespace DecodePipeline

/-- The work that is left on an item, by the attempts that may yet be made. -/
def Attempts.weight (policy : RetryPolicy) : Attempts → Nat
  | .waiting item => 3 * (policy.maxAttempts - item.attempt) + 8
  | .calling item _ _ _ => 3 * (policy.maxAttempts - item.attempt) + 7
  | .pausing item _ => 3 * (policy.maxAttempts - (item.attempt + 1)) + 9
  | .ended _ => 0

def WorkItem.weight (policy : RetryPolicy) (item : WorkItem) : Nat :=
  (Attempts.begin item).weight policy

def Worker.weight (policy : RetryPolicy) (x : Worker) : Nat :=
  match x.point with
  | .idle => 1
  | .busy attempts => attempts.weight policy
  | .handing _ => 6
  | .ended _ => 0

def Consumption.weight (c : Consumption) : Nat :=
  match c.point with
  | .idle => 1
  | .checking _ => 4
  | .resetting _ _ _ => 3
  | .accepting _ _ _ => 2
  | .ended _ => 0

/-- The work that a listed source brings: to publish it, and to work on it. -/
def sourceWeight (policy : RetryPolicy) : Nat := 3 * (policy.maxAttempts - 1) + 9

/-- How many sources a scan brings at most. -/
def scanSize : Reply (List String) (List SourceEntry) → Nat
  | .gives sources => (canonicalOrder sources).length
  | .panics | .fails _ => 0

def Discovery.weight (w : World) (policy : RetryPolicy) (hub : Hub) (d : Discovery) : Nat :=
  match d.point with
  | .scanning => 4 + sourceWeight policy * scanSize (w.catalog hub.scans.length).reply
  | .listing _ reply => 3 + sourceWeight policy * scanSize reply
  | .publishing rest => 2 + sourceWeight policy * rest.length
  | .resting _ => 1
  | .ended _ => 0

def Supervisor.Phase.weight : Supervisor.Phase → Nat
  | .watching => 4
  | .awaitingDiscovery => 3
  | .awaitingWorkers => 2
  | .awaitingConsumption _ => 1
  | .idle | .launching | .stopped => 0

def Supervisor.weight (supervisor : Supervisor) (workers : Nat) : Nat :=
  supervisor.phase.weight + (workers - supervisor.joined.length) +
    supervisor.deadline.isNone.toNat + (!supervisor.expired).toNat

def Hub.weight (policy : RetryPolicy) (hub : Hub) : Nat :=
  (hub.work.buffer.map (WorkItem.weight policy)).sum + 4 * hub.artifacts.buffer.length

theorem Attempts.Moves.weight_lt {w : World} {policy : RetryPolicy} {timeout : Span}
    {hub hub' : Hub} {a a' : Attempts} (h : Attempts.Moves w policy timeout hub a hub' a') :
    a'.weight policy < a.weight policy ∧ 7 ≤ a.weight policy := by
  cases h with
  | retry item due heeds fault _ _ again =>
      simp only [RetryPolicy.shouldRetry, Bool.and_eq_true, decide_eq_true_eq] at again
      simp only [weight, WorkItem.noted]
      omega
  | call item | giveUpWaiting item | heed item | panic item | replyCancelled item | fail item
  | succeed item | resume item | giveUpPausing item =>
      simp only [weight, WorkItem.begun]
      omega

theorem Worker.Moves.weight_lt {w : World} {s : Settings} {hub hub' : Hub} {x x' : Worker}
    (h : x.Moves w s hub hub' x') :
    hub'.weight s.retry + x'.weight s.retry < hub.weight s.retry + x.weight s.retry := by
  cases h with
  | leave at_ | abandonSet _ at_ | refused _ at_ =>
      simp [Worker.weight, at_, Hub.count, Hub.weight]
  | take item rest idle live buffer =>
      simp [Worker.weight, idle, Hub.weight, buffer, WorkItem.weight]
      omega
  | attempt a a' busy moved going =>
      have lt := moved.weight_lt
      simp only [Worker.weight, busy, Hub.weight, moved.alike.work, moved.alike.artifacts]
      omega
  | transformed a set busy moved | panic a busy moved =>
      have lt := moved.weight_lt
      simp only [Worker.weight, busy, Hub.weight, moved.alike.work, moved.alike.artifacts, cutOff]
      omega
  | failed a _ _ busy moved | abandon a busy moved =>
      have lt := moved.weight_lt
      simp only [Worker.weight, busy, Hub.weight, Hub.count, moved.alike.work,
        moved.alike.artifacts]
      omega
  | hand set handing live open_ room =>
      simp [Worker.weight, handing, Hub.weight, Hub.count]
      omega

theorem Consumption.Moves.weight_lt {w : World} {hub hub' : Hub} {c c' : Consumption}
    (h : c.Moves w hub hub' c') (policy : RetryPolicy) :
    hub'.weight policy + c'.weight < hub.weight policy + c.weight := by
  cases h with
  | take set rest idle buffer =>
      simp [Consumption.weight, idle, Hub.weight, buffer]
      omega
  | panic _ _ at_ => obtain at_ | at_ := at_ <;> simp [Consumption.weight, at_]
  | leave at_ | reject _ _ at_ | reset _ at_ | offer _ at_ | offerAfterReset _ _ _ at_
  | refuse _ _ _ at_ | accept _ _ at_ =>
      simp [Consumption.weight, at_, Hub.weight, Hub.count, Consumption.offer]

theorem Discovery.weight_congr {hub hub' : Hub} (d : Discovery) (w : World) (policy : RetryPolicy)
    (scans : hub'.scans = hub.scans) : d.weight w policy hub' = d.weight w policy hub := by
  simp only [weight]
  rw [scans]

theorem Discovery.leftBehind_weight (d : Discovery) (policy : RetryPolicy) (hub : Hub) :
    (d.leftBehind hub).weight policy = hub.weight policy := by
  simp only [leftBehind]
  split <;> rfl

/-- Discovery uses work up, unless it returns to its next scan. -/
theorem Discovery.Moves.weight_lt {w : World} {hub hub' : Hub} {d d' : Discovery}
    (h : d.Moves w hub hub' d') (policy : RetryPolicy)
    (settled : ∀ due, d.point = .resting due → hub.cancelled) :
    hub'.weight policy + d'.weight w policy hub' < hub.weight policy + d.weight w policy hub := by
  cases h with
  | scan at_ => simp [Discovery.weight, at_, Hub.weight]
  | panic _ at_ => simp [Discovery.weight, at_]
  | firstScanFails _ _ at_ | giveUp _ _ at_ | refused _ _ at_ | stop _ at_ =>
      rw [leftBehind_weight]
      simp [Discovery.weight, at_]
  | list due sources at_ =>
      have fewer : (d.fresh sources).length ≤ (canonicalOrder sources).length :=
        List.length_filter_le ..
      have := Nat.mul_le_mul_left (sourceWeight policy) fewer
      simp [Discovery.weight, at_, scanSize]
      omega
  | publish s rest at_ =>
      simp [Discovery.weight, at_, Hub.weight, Hub.count, WorkItem.weight, workItem, WorkItem.new,
        WorkItem.queued, Attempts.begin, WorkItem.begun, Attempts.weight, sourceWeight, Nat.mul_add]
      omega
  | complete finished =>
      obtain ⟨_, at_, _⟩ | ⟨_, _, at_, _⟩ := finished <;>
        simp [Discovery.weight, at_, Hub.weight, Queue.close]
  | rest _ finished =>
      obtain ⟨_, at_, _⟩ | ⟨_, _, at_, _⟩ := finished <;> simp [Discovery.weight, at_] <;> omega
  | wake due at_ live => rw [settled due at_] at live; contradiction

theorem Worker.weight_aborted (policy : RetryPolicy) (x : Worker) :
    x.aborted.weight policy ≤ x.weight policy := by
  simp only [aborted]
  split
  · exact Nat.le_refl _
  · simp [Worker.weight, cutOff]

theorem Discovery.weight_abort (w : World) (policy : RetryPolicy) (hub : Hub) (d : Discovery) :
    d.abort.weight w policy hub ≤ d.weight w policy hub := by
  simp only [abort]
  split
  · exact Nat.le_refl _
  · simp [Discovery.weight]

theorem Consumption.weight_abort (c : Consumption) : c.abort.weight ≤ c.weight := by
  simp only [abort]
  split
  · exact Nat.le_refl _
  · simp [Consumption.weight, cutOff]

namespace Run

/-- One event of a run that is not disturbed from outside: a task makes a step, however late,
or time passes, but not beyond the last point in time that a task waits for. -/
inductive Move (w : World) (r : Run) : Run → Prop where
  | task (a : Action) (time : Nat) {r' : Run} : r.hub.now ≤ time →
      (setClock time r).stepTask w a = some r' → Move w r r'
  | wait (time due : Nat) : due ∈ r.dues → r.hub.now < time → time ≤ due →
      Move w r (setClock time r)

/-- Whatever the tasks do and in whatever order, the run comes to a state with a
property. -/
inductive Inevitable (w : World) (goal : Run → Prop) : Run → Prop where
  | here {r : Run} : goal r → Inevitable w goal r
  | later {r : Run} : (∃ r', Move w r r') → (∀ r', Move w r r' → Inevitable w goal r') →
      Inevitable w goal r

variable {w : World} {s : Settings} {r r' : Run} {d d' : Discovery} {c c' : Consumption}

theorem changes_of_moves (h : Relation.ReflTransGen (Move w) r r') :
    Relation.ReflTransGen (Change w) r r' := by
  induction h with
  | refl => exact .refl
  | tail _ move ih =>
      cases move with
      | task a time later stepped => exact (ih.tail (.clock time later)).tail (.task a stepped)
      | wait time _ _ later _ => exact ih.tail (.clock time (Nat.le_of_lt later))

/-- What the steps of the tasks and the clock keep is kept by every event. -/
theorem Move.keeps {P : Run → Discovery → Consumption → Prop}
    (launched : ∀ {r d c}, P r d c → Launched r d c)
    (works : ∀ {r r' d d' c c'}, P r d c → Works w r d c r' d' c' → P r' d' c')
    (clock : ∀ {r d c} time, P r d c → P (setClock time r) d c)
    (move : Move w r r') (holds : P r d c) : ∃ d' c', P r' d' c' := by
  cases move with
  | task a time _ stepped =>
      have late := clock time holds
      obtain ⟨d', c', h⟩ := (launched late).works stepped
      exact ⟨d', c', works late h⟩
  | wait time => exact ⟨d, c, clock time holds⟩

/-- A run whose tasks make no step, however late, and wait for no point in time is stuck. -/
theorem Launched.stuck (launched : Launched r d c)
    (still : ∀ time r' d' c', ¬Works w (setClock time r) d c r' d' c') (undue : ∀ t, t ∉ r.dues) :
    ¬Move w r r' := by
  intro move
  cases move with
  | task a time _ stepped =>
      obtain ⟨d', c', h⟩ := (launched.clock time).works stepped
      exact still time _ d' c' h
  | wait time due mem => exact undue due mem

/-- What is inevitable and has to lead to something else makes that inevitable too. -/
theorem Inevitable.bind {goal goal' : Run → Prop} (h : Inevitable w goal r)
    (next : ∀ r', Relation.ReflTransGen (Move w) r r' → goal r' → Inevitable w goal' r') :
    Inevitable w goal' r := by
  induction h with
  | here at_ => exact next _ .refl at_
  | later moves _ ih =>
      exact .later moves fun r' move => ih r' move fun r'' reached => next r'' (reached.head move)

theorem Inevitable.mono {goal goal' : Run → Prop} (h : Inevitable w goal r)
    (imp : ∀ r', Relation.ReflTransGen (Move w) r r' → goal r' → goal' r') : Inevitable w goal' r :=
  h.bind fun r' reached at_ => .here (imp r' reached at_)

/-- What is inevitable stays so as long as it has not come. -/
theorem Inevitable.of_reached {goal : Run → Prop} (final : ∀ r r', goal r → ¬Move w r r')
    (h : Inevitable w goal r) (reached : Relation.ReflTransGen (Move w) r r') :
    Inevitable w goal r' := by
  induction reached with
  | refl => exact h
  | tail _ move ih =>
      cases ih with
      | here at_ => exact absurd move (final _ _ at_)
      | later _ all => exact all _ move

/-- A run that cannot go on comes to nothing that it is not already. -/
theorem Inevitable.of_stuck {goal : Run → Prop} (h : Inevitable w goal r)
    (stuck : ∀ r', ¬Move w r r') : goal r := by
  cases h with
  | here at_ => exact at_
  | later moves _ =>
      obtain ⟨r', move⟩ := moves
      exact absurd move (stuck r')

/-- How long the tasks still have to wait at most. -/
def patience (r : Run) : Nat := (r.dues.map (· - r.hub.now)).sum

theorem patience_wait {time due : Nat} (mem : due ∈ r.dues) (later : r.hub.now < time)
    (within : time ≤ due) : (setClock time r).patience < r.patience := by
  have dues : (setClock time r).dues = r.dues := rfl
  simp only [patience]
  rw [dues]
  refine List.sum_lt_sum _ _ (fun t _ => ?_) ⟨due, mem, ?_⟩
  · simp only [setClock]
    omega
  · simp only [setClock]
    omega

/-- A run whose steps use something up, and that can go on as long as it has not come to a
goal, comes to it. -/
theorem inevitable_of_potential (keeps goal : Run → Prop) (potential : Run → Nat)
    (moves : ∀ r, keeps r → ¬goal r → ∃ r', Move w r r')
    (kept : ∀ r r', keeps r → ¬goal r → Move w r r' → keeps r')
    (task : ∀ r r' a time, keeps r → ¬goal r → (setClock time r).stepTask w a = some r' →
      potential r' < potential r)
    (wait : ∀ r time, potential (setClock time r) = potential r) (r : Run) (h : keeps r) :
    Inevitable w goal r := by
  -- lexicographic induction: on the work that is left, then on the time that is left to wait
  induction bound : potential r using Nat.strong_induction_on generalizing r with
  | _ work outer =>
      induction left : r.patience using Nat.strong_induction_on generalizing r with
      | _ time inner =>
          by_cases at_ : goal r
          · exact .here at_
          · refine .later (moves r h at_) ?_
            intro r' move
            have kept' := kept r r' h at_ move
            cases move with
            | task a time _ stepped =>
                exact outer _ (bound ▸ task r r' a time h at_ stepped) r' kept' rfl
            | wait later due mem now within =>
                exact inner _ (left ▸ patience_wait mem now within) (setClock later r) kept'
                  ((wait r later).trans bound) rfl

def potential (w : World) (r : Run) : Nat :=
  r.supervisor.weight r.workers.length + r.hub.weight r.settings.retry +
    (r.workers.map (Worker.weight r.settings.retry)).sum +
    (r.discovery.map (Discovery.weight w r.settings.retry r.hub)).getD 0 +
    (r.consumption.map Consumption.weight).getD 0

theorem Launched.potential_eq (launched : Launched r d c) (w : World) :
    r.potential w =
      r.supervisor.weight r.workers.length + r.hub.weight r.settings.retry +
        (r.workers.map (Worker.weight r.settings.retry)).sum +
        d.weight w r.settings.retry r.hub + c.weight := by
  simp [potential, launched.discovery, launched.consumption]

theorem Attended.hub_weight (attended : r.Attended r') (policy : RetryPolicy) :
    r'.hub.weight policy = r.hub.weight policy := by
  rw [Hub.weight, attended.work.1, attended.artifacts.1, Hub.weight]

theorem Attended.workers_weight (attended : r.Attended r') (policy : RetryPolicy) :
    r'.workers.length = r.workers.length ∧
      (r'.workers.map (Worker.weight policy)).sum ≤ (r.workers.map (Worker.weight policy)).sum := by
  obtain ⟨same, _⟩ | ⟨_, ended, _⟩ := attended.workers
  · rw [same]
    exact ⟨rfl, Nat.le_refl _⟩
  · rw [ended, List.map_map, List.length_map]
    exact ⟨rfl, List.sum_le_sum fun x _ => x.weight_aborted policy⟩

theorem InOrder.joined_lt (order : InOrder r d c) {i : Nat} {x : Worker}
    (unseen : i ∉ r.supervisor.joined) (at_ : r.workers[i]? = some x) :
    r.supervisor.joined.length < r.workers.length := by
  have here : i ∈ List.range r.workers.length :=
    List.mem_range.mpr (List.getElem?_eq_some_iff.mp at_).1
  have within : i :: r.supervisor.joined ⊆ List.range r.workers.length :=
    List.cons_subset.mpr ⟨here, order.joined_within⟩
  have fewer := (List.subperm_of_subset (List.nodup_cons.mpr ⟨unseen, order.joined_nodup⟩)
    within).length_le
  rw [List.length_cons, List.length_range] at fewer
  exact fewer

theorem Supervises.weight_lt (h : Supervises r d c r' d' c') (order : InOrder r d c) :
    r'.supervisor.weight r.workers.length < r.supervisor.weight r.workers.length := by
  cases h with
  | discoveryOver _ phase | discoveryJoined _ phase =>
      simp [Supervisor.weight, noted, drain, enter, phase, Supervisor.Phase.weight]
  | interrupted phase =>
      simp [Supervisor.weight, drain, enter, arm, phase, Supervisor.Phase.weight]
      omega
  | discoveryExpired phase =>
      rw [expire, abortWorkers_eq]
      simp [Supervisor.weight, abortDiscovery, enter, phase, Supervisor.Phase.weight]
      omega
  | workerJoined i x e phase unseen at_ =>
      have lt := order.joined_lt unseen at_
      simp [Supervisor.weight, noted]
      omega
  | workersGone _ phase =>
      simp [Supervisor.weight, enter, phase, Supervisor.Phase.weight]
  | workersExpired phase unexpired =>
      rw [expire, abortWorkers_eq]
      simp [Supervisor.weight, unexpired]
  | armed phase _ unset =>
      simp [Supervisor.weight, arm, unset]
  | consumptionJoined _ _ phase =>
      simp [Supervisor.weight, stop, noted, enter, phase, Supervisor.Phase.weight]
  | consumptionExpired _ phase =>
      simp [Supervisor.weight, stop, abortConsumption, enter, phase, Supervisor.Phase.weight]

/-- Every step of a task uses work up, unless discovery returns to its next scan. -/
theorem Works.potential_lt (h : Works w r d c r' d' c') (launched : Launched r d c)
    (order : InOrder r d c) (settled : ∀ due, d.point = .resting due → r.hub.cancelled) :
    r'.potential w < r.potential w := by
  have launched' := h.launched launched
  rw [launched'.potential_eq, launched.potential_eq]
  cases h with
  | discovery hub d' moved =>
      have lt := moved.weight_lt r.settings.retry settled
      simp only
      omega
  | worker i x x' hub at_ moved =>
      have lt := moved.weight_lt
      have same := d.weight_congr w r.settings.retry moved.scans
      obtain ⟨rest, before, after⟩ := exists_perm_set at_ x'
      have old := (before.map (Worker.weight r.settings.retry)).sum_eq
      have new := (after.map (Worker.weight r.settings.retry)).sum_eq
      simp only [List.map_cons, List.sum_cons] at old new
      simp only [List.length_set, same, old, new]
      omega
  | consumption hub c' moved =>
      have lt := moved.weight_lt r.settings.retry
      have same := d.weight_congr w r.settings.retry moved.scans
      simp only [same]
      omega
  | supervisor supervises =>
      have attended := supervises.attended
      have lt := supervises.weight_lt order
      have workers := attended.workers_weight r.settings.retry
      have discovery : d'.weight w r.settings.retry r'.hub ≤ d.weight w r.settings.retry r.hub := by
        rw [d'.weight_congr w _ attended.scans]
        obtain rfl | rfl := supervises.tasks.1
        · exact Nat.le_refl _
        · exact d.weight_abort w _ _
      have consumption : c'.weight ≤ c.weight := by
        obtain rfl | rfl := supervises.tasks.2
        · exact Nat.le_refl _
        · exact c.weight_abort
      rw [attended.settings, attended.hub_weight, workers.1]
      omega

/-- A run that was just started does nothing but let its tasks come into being. -/
theorem inevitable_of_launch {goal : Run → Prop} {now : Nat} {cancelled : Bool}
    (h : ∀ time, Inevitable w goal (fresh s time cancelled).launch) :
    Inevitable w goal (fresh s now cancelled) := by
  refine .later ⟨_, .task (.supervisor .launch) now (Nat.le_refl now) rfl⟩ ?_
  intro r' move
  cases move with
  | task a time _ stepped =>
      have launched : r' = (fresh s time cancelled).launch := stepTask_fresh stepped
      rw [launched]
      exact h time
  | wait time due mem =>
      simp [dues, supervisorDue, fresh] at mem

end Run

end DecodePipeline
