import DecodePipeline.Proofs.Run.Polling
import DecodePipeline.Proofs.Run.Surplus

/-!
What becomes of a run after a worker or consumption has broken down: in batch mode it depends
on the number of items against the room in the queues, and a polling run does not notice.
-/

namespace DecodePipeline.Run

variable {w : World} {s : Settings} {r : Run}

theorem quiet_of_isQuiet (quiet : r.isQuiet w) (undue : r.dues = []) : Quiet w r where
  task := stepTask_of_isQuiet quiet
  due t mem := by
    rw [undue] at mem
    cases mem

theorem finite_slowWorld (broken : Option String) (s : Settings) : (slowWorld broken).Finite s where
  catalog _ := rfl
  answers :=
    { decoder := by
        intro id n
        simp only [Attempts.limited]
        split <;> rfl
      reset := rfl
      accept := fun _ _ => rfl }

/-- Once a worker or consumption has broken down, the run stops with a fault, whatever the
order of its steps, exactly when discovery comes to an end and the run neither jams nor is
cut off by the deadline. If nobody cancels it, a batch run with few items always does so, and
a polling run without a limit never, as long as the catalog lists. -/
theorem recovers_iff {r₀ : Run} (started : begin s = .ok r₀) (finite : w.Finite s)
    (reached : Relation.ReflTransGen (Change w) r₀ r) (broken : HasBroken r)
    (unstopped : r.lifecycle ≠ .stopped) :
    (Inevitable w StoppedWithFault r ↔
      (s.mode = .batch ∨ r.hub.cancelled ∨ Inevitable w DiscoveryOver r) ∧ Clear w r) ∧
    (s.mode = .batch → allowance w s ≤ s.queueCapacity + 1 → r.hub.cancelled = false →
      Inevitable w StoppedWithFault r) ∧
    (s.mode ≠ .batch → s.maxItems = none → w.AlwaysLists → r.hub.cancelled = false →
      r.lifecycle = .running ∧ ¬Inevitable w StoppedWithFault r) := by
  obtain ⟨d, c, recovering⟩ := recovering_of_reached started finite reached broken unstopped
  obtain ⟨_, positive, _⟩ := begin_eq started
  refine ⟨recovering.inevitable_iff finite positive, ?_, ?_⟩
  · intro batch few live
    exact recovers_of_few started batch finite few reached broken unstopped live
  · intro polls unlimited lists live
    exact polling_goes_on started polls unlimited lists reached broken live

/-- A worker breaks down on the first of three items; the second fills the queue, and
discovery waits with the third. -/
theorem one_worker_stuck :
    ∃ r, Reachable (slowWorld (some "a")) (fresh { queueCapacity := 1 } 0 false) r ∧ HasBroken r ∧
      r.lifecycle = .running ∧ ∀ r', ¬Move (slowWorld (some "a")) r r' := by
  let later : List Action :=
    [.discovery, .worker 0, .worker 0, .discovery, .tick 10, .worker 0]
  have arrives : ((listed { queueCapacity := 1 }).follow (slowWorld (some "a")) later).any
      (fun r => r.lifecycle = .running && r.workers.any (·.point = .ended .panicked) &&
        r.isQuiet (slowWorld (some "a")) && r.dues.isEmpty) := by decide
  obtain ⟨r, arrives, holds⟩ := (Option.any_eq_true _ _).mp arrives
  simp only [Bool.and_eq_true, decide_eq_true_eq, List.any_eq_true, List.isEmpty_iff] at holds
  obtain ⟨⟨⟨running, broken⟩, quiet⟩, undue⟩ := holds
  have reached := reachable_of_follow ((follow_listed _ (some "a") later).trans arrives)
  refine ⟨r, reached, .inl broken, running, ?_⟩
  intro r'
  -- no task can make a step now, so the run is jammed, and no task can make one later
  obtain ⟨d, c, timed, _⟩ := recovering_of_reached (s := { queueCapacity := 1 }) rfl
    (finite_slowWorld _ _) (reaches_of_reachable reached) (.inl broken) (by simp [running])
  have unstopped : r.supervisor.phase ≠ .stopped := by
    intro phase
    rw [lifecycle_stopped.mpr phase] at running
    cases running
  have jam := (quiet_of_isQuiet quiet undue).jammed timed.coherent Nat.one_pos timed.listing
    timed.awaits unstopped
  exact jam.stuck timed.coherent

/-- A run whose only worker broke down, and which stays as it is for ever. -/
theorem not_recovering_one_worker :
    ∃ r, begin { queueCapacity := 1 } = .ok (fresh { queueCapacity := 1 } 0 false) ∧
      Reachable (slowWorld (some "a")) (fresh { queueCapacity := 1 } 0 false) r ∧ HasBroken r ∧
      r.lifecycle = .running ∧ (∀ r', ¬Move (slowWorld (some "a")) r r') ∧
      ¬Inevitable (slowWorld (some "a")) StoppedWithFault r := by
  obtain ⟨r, reached, broken, running, stuck⟩ := one_worker_stuck
  refine ⟨r, rfl, reached, broken, running, stuck, ?_⟩
  intro recovers
  have stopped := (recovers.of_stuck stuck).1
  rw [running] at stopped
  cases stopped

/-- The same breakdown under other settings. -/
theorem broken_of_follow (s : Settings) (later : List Action)
    (arrives : ((listed s).follow (slowWorld (some "a")) later).any fun r =>
      r.lifecycle ≠ .stopped && r.workers.any (·.point = .ended .panicked) && !r.hub.cancelled) :
    ∃ r, Relation.ReflTransGen (Change (slowWorld (some "a"))) (fresh s 0 false) r ∧
      HasBroken r ∧ r.lifecycle ≠ .stopped ∧ r.hub.cancelled = false := by
  obtain ⟨r, arrives, holds⟩ := (Option.any_eq_true _ _).mp arrives
  simp only [Bool.and_eq_true, decide_eq_true_eq, List.any_eq_true, Bool.not_eq_true'] at holds
  obtain ⟨⟨unstopped, broken⟩, live⟩ := holds
  have reached := reachable_of_follow ((follow_listed _ (some "a") later).trans arrives)
  exact ⟨r, reaches_of_reachable reached, .inl broken, unstopped, live⟩

/-- A jam lies ahead of that run, as it must. With a second place in the queue the run stops
with the fault, and if it polls it goes on without its worker. -/
theorem recovers_iff_one_worker :
    (∃ r, begin { queueCapacity := 1 } = .ok (fresh { queueCapacity := 1 } 0 false) ∧
      (slowWorld (some "a")).Finite { queueCapacity := 1 } ∧ HasBroken r ∧ r.lifecycle ≠ .stopped ∧
      Relation.ReflTransGen (Change (slowWorld (some "a")))
        (fresh { queueCapacity := 1 } 0 false) r ∧
      ∃ r', Relation.ReflTransGen (Move (slowWorld (some "a"))) r r' ∧
        (IsJammed r' ∨ Severed r')) ∧
    (∃ r, Relation.ReflTransGen (Change (slowWorld (some "a")))
        (fresh { queueCapacity := 2 } 0 false) r ∧
      HasBroken r ∧ Inevitable (slowWorld (some "a")) StoppedWithFault r) ∧
    ∃ r, Relation.ReflTransGen (Change (slowWorld (some "a")))
        (fresh { mode := .poll (.ofMillis 100) } 0 false) r ∧
      HasBroken r ∧ r.lifecycle = .running ∧
      ¬Inevitable (slowWorld (some "a")) StoppedWithFault r := by
  refine ⟨?_, ?_, ?_⟩
  · obtain ⟨r, reached, broken, running, stuck⟩ := one_worker_stuck
    have reached := reaches_of_reachable reached
    have unstopped : r.lifecycle ≠ .stopped := by simp [running]
    refine ⟨r, rfl, finite_slowWorld _ _, broken, unstopped, reached, ?_⟩
    by_contra nothing
    have recovers := (recovers_iff (s := { queueCapacity := 1 }) rfl (finite_slowWorld _ _) reached
      broken unstopped).1.mpr
      ⟨.inl rfl, fun r' ahead => ⟨fun jam => nothing ⟨r', ahead, .inl jam⟩,
        fun cut => nothing ⟨r', ahead, .inr cut⟩⟩⟩
    exact unstopped (recovers.of_stuck stuck).1
  · let s : Settings := { queueCapacity := 2 }
    obtain ⟨r, reached, broken, unstopped, live⟩ := broken_of_follow s
      [.discovery, .worker 0, .worker 0, .discovery, .discovery, .discovery,
        .supervisor .discoveryEnded, .tick 10, .worker 0] (by decide)
    have few : allowance (slowWorld (some "a")) s ≤ 2 + 1 := by
      simp only [s, allowance, scanSize, slowWorld, canonicalOrder_threeSources]
      decide
    refine ⟨r, reached, broken, ?_⟩
    exact (recovers_iff (s := s) rfl (finite_slowWorld _ _) reached broken unstopped).2.1 rfl few
      live
  · let s : Settings := { mode := .poll (.ofMillis 100) }
    obtain ⟨r, reached, broken, unstopped, live⟩ := broken_of_follow s
      [.discovery, .worker 0, .worker 0, .discovery, .discovery, .discovery, .tick 10, .worker 0]
      (by decide)
    refine ⟨r, reached, broken, ?_⟩
    have goes_on :=
      (recovers_iff (s := s) rfl (finite_slowWorld _ _) reached broken unstopped).2.2
    exact goes_on (by simp [s]) rfl (fun _ => ⟨_, rfl⟩) live

end DecodePipeline.Run
