import DecodePipeline.Proofs.Run.FirstFault
import DecodePipeline.Proofs.Run.Listing
import DecodePipeline.Proofs.Run.Shutdown

/-!
What a run can report when it is taken down. Cancellation closes the queue that discovery may be
waiting for, and the deadline ends tasks wherever they are; neither counts as a fault. A fault is on
record only when the first scan has failed or a task has panicked.
-/

namespace DecodePipeline

/-- How a stage's tasks are named in a fault. -/
def Stage.task : Stage → String
  | discovery => "discovery"
  | workers => "transform worker"
  | consumption => "consumption"

namespace Run

variable {w : World} {s : Settings} {r r' : Run} {d : Discovery} {c : Consumption}
  {givenUp : List Stage} {fault : Fault}

/-- A task of a stage has panicked. -/
def Panicked (r : Run) : Stage → Prop
  | .discovery => ∃ d, r.discovery = some d ∧ d.point = .ended .panicked
  | .workers => ∃ x ∈ r.workers, x.point = .ended .panicked
  | .consumption => ∃ c, r.consumption = some c ∧ c.point = .ended .panicked

/-- The first scan has failed and discovery has ended with that. -/
def FirstScanFailed (w : World) (r : Run) (messages : List String) : Prop :=
  (w.catalog 0).reply = .fails messages ∧ r.hub.scans.length = 1 ∧
    ∃ d, r.discovery = some d ∧
      d.point = .ended (.faulted (.discovery (Failure.chain messages)))

theorem blame_workers_of_worker {i : Nat} (faults : Faults r d c)
    (blamed : r.workerBlame i = some fault) : r.blame .workers = some fault := by
  obtain ⟨e, ended, _⟩ := Option.bind_eq_some_iff.mp blamed
  obtain ⟨x, at_, _⟩ := Option.bind_eq_some_iff.mp ended
  obtain ⟨lt, _⟩ := List.getElem?_eq_some_iff.mp at_
  obtain rfl := faults.workerBlame blamed
  apply findSome?_of_mem (fun _ _ => faults.workerBlame) (List.mem_range.mpr lt)
  rw [blamed]
  rfl

/-- Nothing is on record that no stage is to blame for. -/
theorem blamed_of_onRecord (faults : Faults r d c) (recorded : r.onRecord givenUp = some fault) :
    ∃ stage, r.blame stage = some fault := by
  have counted {stage : Stage}
      (found : (if stage ∈ givenUp then none else r.blame stage) = some fault) :
      ∃ stage, r.blame stage = some fault :=
    ⟨stage, (Option.ite_none_left_eq_some.mp found).2⟩
  cases phase : r.supervisor.phase with
  | idle | launching | watching | awaitingDiscovery =>
      rw [onRecord_early (by simp [phase])] at recorded
      cases recorded
  | awaitingWorkers =>
      rw [onRecord_awaitingWorkers phase, Option.or_eq_some_iff] at recorded
      obtain found | ⟨_, joined⟩ := recorded
      · exact counted found
      · obtain ⟨i, _, blamed⟩ := List.exists_of_findSome?_eq_some joined
        exact ⟨.workers, blame_workers_of_worker faults blamed⟩
  | awaitingConsumption =>
      rw [onRecord_awaitingConsumption phase, Option.or_eq_some_iff] at recorded
      obtain found | ⟨_, found⟩ := recorded
      · exact counted found
      · exact counted found
  | stopped =>
      rw [onRecord_stopped phase] at recorded
      obtain ⟨stage, found, _⟩ := Stage.findSome?_order.mp recorded
      exact counted found

theorem panicked_of_endingFault {task : String} {e : DecodePipeline.Ending Nat}
    (noted : endingFault task e = some fault) (well : ∀ fault, e ≠ .faulted fault) :
    e = .panicked := by
  cases e with
  | panicked => rfl
  | returned | aborted => cases noted
  | faulted fault' => exact absurd rfl (well fault')

/-- Discovery ends a run by itself only when the first scan has failed or it has panicked. -/
theorem Charted.explains_discovery (charted : Charted w s r d c)
    (blamed : r.blame .discovery = some fault) :
    (∃ messages, FirstScanFailed w r messages ∧
        fault = .discovery (Failure.chain messages)) ∨ r.Panicked .discovery := by
  have launched := charted.coherent.launched
  have owns := owns_of_blame launched charted.faults blamed
  rw [blame_discovery launched] at blamed
  obtain ⟨e, ended, blamed⟩ := Option.bind_eq_some_iff.mp blamed
  have point := point_of_discovery_ending ended
  cases e with
  | returned | aborted => cases blamed
  | panicked => exact .inr ⟨d, launched.discovery, point⟩
  | faulted fault' =>
      simp only [discoveryFault, Option.ite_none_left_eq_some, Option.some.injEq] at blamed
      obtain ⟨_, rfl⟩ := blamed
      left
      obtain ⟨entries, course⟩ := charted.course
      obtain ⟨full, _, _, _, ends⟩ := course.answered
      have named : fault' ≠ .queueClosed ∧ fault' ≠ .cancelled := by
        obtain ⟨reason, rfl⟩ | rfl := owns <;> simp [panicFault]
      obtain ⟨_, rfl⟩ | ⟨messages, fails, single, _, rfl⟩ := (ends _ point).of_faulted named.1
      · exact absurd rfl named.2
      · exact ⟨messages, ⟨fails, single, d, launched.discovery, point⟩, rfl⟩

/-- What a stage is to blame for: that its first scan failed, or that a task of it panicked. -/
theorem Charted.explains (charted : Charted w s r d c) {stage : Stage}
    (blamed : r.blame stage = some fault) :
    (∃ messages, FirstScanFailed w r messages ∧
        fault = .discovery (Failure.chain messages)) ∨
      r.Panicked stage ∧ fault = panicFault stage.task := by
  have launched := charted.coherent.launched
  have owns := owns_of_blame launched charted.faults blamed
  cases stage with
  | discovery =>
      refine (charted.explains_discovery blamed).imp_right fun panicked => ⟨panicked, ?_⟩
      obtain ⟨d', at_, point⟩ := panicked
      have named : panicFault "discovery" = fault := by
        simpa [blame, at_, Discovery.ending?, point, discoveryFault] using blamed
      exact named.symm
  | workers =>
      obtain ⟨i, _, found⟩ := List.exists_of_findSome?_eq_some blamed
      obtain ⟨e, ended, noted⟩ := Option.bind_eq_some_iff.mp found
      obtain ⟨x, at_, ended⟩ := Option.bind_eq_some_iff.mp ended
      have mem := List.mem_of_getElem? at_
      have point := point_of_worker_ending ended
      obtain rfl := panicked_of_endingFault noted fun fault' eq =>
        charted.faults.workers x mem fault' (eq ▸ point)
      exact .inr ⟨⟨x, mem, point⟩, owns⟩
  | consumption =>
      rw [blame_consumption launched] at blamed
      obtain ⟨e, ended, noted⟩ := Option.bind_eq_some_iff.mp blamed
      have point := point_of_consumption_ending ended
      obtain rfl := panicked_of_endingFault noted fun fault' eq =>
        charted.faults.consumption fault' (eq ▸ point)
      exact .inr ⟨⟨c, launched.consumption, point⟩, owns⟩

theorem explained_of_reached {r₀ : Run} (started : begin s = .ok r₀)
    (reached : Relation.ReflTransGen (Change w) r₀ r)
    (recorded : r.supervisor.firstFault = some fault) :
    (∃ messages, FirstScanFailed w r messages ∧
        fault = .discovery (Failure.chain messages)) ∨
      ∃ stage, r.Panicked stage ∧ fault = panicFault stage.task := by
  obtain ⟨now, cancelled, rfl⟩ | ⟨d, c, charted⟩ := charted_of_reached started reached
  · cases recorded
  obtain ⟨actions, course⟩ := exists_replay reached
  obtain ⟨now, cancelled, rfl, _⟩ | ⟨d', c', _, faults, _, collected⟩ :=
    traced_of_replay started course
  · cases recorded
  rw [collected.recorded] at recorded
  obtain ⟨stage, blamed⟩ := blamed_of_onRecord faults recorded
  exact (charted.explains blamed).imp_right fun panicked => ⟨stage, panicked⟩

/-- The artifact queue outlives the workers, so none is refused. What a run has on record is that
its first scan failed or that a task panicked. -/
theorem takes_down_in_order {r₀ : Run} (started : begin s = .ok r₀)
    (reached : Relation.ReflTransGen (Change w) r₀ r) :
    (r.hub.artifacts.closed → ∀ x ∈ r.workers, x.Over) ∧
      (∀ x ∈ r.workers, ∀ fault, x.point ≠ .ended (.faulted fault)) ∧
      (∀ fault, r.supervisor.firstFault = some fault →
        (fault.kind = "discovery" ∧
            ∃ messages, FirstScanFailed w r messages ∧
              fault = .discovery (Failure.chain messages)) ∨
          fault.kind = "supervisor" ∧
            ∃ stage, r.Panicked stage ∧ fault = panicFault stage.task) ∧
      ((∀ stage, ¬r.Panicked stage) → (∀ messages, ¬FirstScanFailed w r messages) →
        r.supervisor.firstFault = none) := by
  refine ⟨?_, ?_, ?_, ?_⟩
  · intro closed
    obtain ⟨now, cancelled, rfl⟩ | ⟨d, c, coherent⟩ := coherent_of_reached started reached
    · cases closed
    · exact coherent.order.workers_over (.inr (coherent.order.artifacts_closed ▸ closed))
  · intro x mem
    obtain ⟨now, cancelled, rfl⟩ | ⟨d, c, charted⟩ := charted_of_reached started reached
    · cases mem
    · exact charted.faults.workers x mem
  · intro fault recorded
    obtain ⟨messages, failed, rfl⟩ | ⟨stage, panicked, rfl⟩ :=
      explained_of_reached started reached recorded
    · exact .inl ⟨rfl, messages, failed, rfl⟩
    · exact .inr ⟨rfl, stage, panicked, rfl⟩
  · intro unhurt listed
    cases recorded : r.supervisor.firstFault with
    | none => rfl
    | some fault =>
        obtain ⟨messages, failed, _⟩ | ⟨stage, panicked, _⟩ :=
          explained_of_reached started reached recorded
        · exact absurd failed (listed messages)
        · exact absurd panicked (unhurt stage)

/-- Discovery is cancelled while it waits for room, and the worker is ended in the midst of a call
that heeds nothing. The run reports no fault. -/
theorem takes_down_in_order_held_up :
    ∃ r, Relation.ReflTransGen (Change hungWorld)
        (fresh { queueCapacity := 1, shutdownTimeout := .ofMillis 5 } 0 false) r ∧
      r.lifecycle = .stopped ∧ r.hub.cancelled ∧
      r.discovery.bind Discovery.ending? = some (.faulted .cancelled) ∧
      r.workers.map Worker.ending? = [some .aborted] ∧ r.supervisor.firstFault = none := by
  let s : Settings := { queueCapacity := 1, shutdownTimeout := .ofMillis 5 }
  let later : List Action :=
    [.discovery, .worker 0, .worker 0, .discovery, .cancel, .supervisor .cancellation, .discovery,
      .supervisor .discoveryEnded, .tick 5, .supervisor .deadline, .supervisor .workerEnded,
      .supervisor .workersGone, .consumption, .supervisor .consumptionEnded]
  have arrives : ((listed s).follow hungWorld later).any (fun r =>
      r.lifecycle = .stopped && r.hub.cancelled &&
        r.discovery.bind Discovery.ending? = some (.faulted .cancelled) &&
        r.workers.map Worker.ending? = [some .aborted] &&
        r.consumption.bind Consumption.ending? = some (.returned 0)) := by decide
  obtain ⟨r, arrives, holds⟩ := (Option.any_eq_true _ _).mp arrives
  simp only [Bool.and_eq_true, decide_eq_true_eq] at holds
  obtain ⟨⟨⟨⟨stopped, cancelled⟩, discovery⟩, workers⟩, consumption⟩ := holds
  have reached := reaches_of_reachable
    (reachable_of_follow ((follow_scanned s rfl later).trans arrives))
  refine ⟨r, reached, stopped, cancelled, discovery, workers, ?_⟩
  obtain ⟨_, _, _, silent⟩ := takes_down_in_order (s := s) rfl reached
  refine silent (fun stage panicked => ?_) fun messages failed => ?_
  · cases stage with
    | discovery =>
        obtain ⟨d, at_, point⟩ := panicked
        simp [at_, Discovery.ending?, point] at discovery
    | workers =>
        obtain ⟨x, mem, point⟩ := panicked
        have ends : x.ending? ∈ [some .aborted] := workers ▸ List.mem_map_of_mem mem
        simp [Worker.ending?, point] at ends
    | consumption =>
        obtain ⟨c, at_, point⟩ := panicked
        simp [at_, Consumption.ending?, point] at consumption
  · cases failed.1

end Run

end DecodePipeline
