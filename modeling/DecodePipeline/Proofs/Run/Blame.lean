import DecodePipeline.Proofs.Run.Course
import DecodePipeline.Proofs.Run.Order

/-!
What the stages of a run can be blamed for. Each has faults of its own: discovery one that names
the catalog, and all of them that a task of theirs panicked. What a stage is to blame for comes
with a step of its tasks, and neither the supervisor nor a cancellation changes it.
-/

namespace DecodePipeline

/-- What the supervisor waits for. -/
inductive Stage where
  | discovery
  | workers
  | consumption
  deriving Repr, DecidableEq

namespace Stage

/-- The faults that a stage can be to blame for. -/
def Owns : Stage → Fault → Prop
  | discovery, fault => (∃ reason, fault = .discovery reason) ∨ fault = Run.panicFault "discovery"
  | workers, fault => fault = Run.panicFault "transform worker"
  | consumption, fault => fault = Run.panicFault "consumption"

theorem Owns.unique {stage stage' : Stage} {fault : Fault} (owns : stage.Owns fault)
    (owns' : stage'.Owns fault) : stage = stage' := by
  cases stage <;> cases stage' <;> simp_all [Owns, Run.panicFault]

end Stage

/-- A task broke down, or discovery could not begin; either ends the run. -/
structure Mishap where
  time : Nat
  stage : Stage
  fault : Fault
  deriving Repr, DecidableEq

/-- What the first mishap of a stage was. -/
def faultOf (mishaps : List Mishap) (stage : Stage) : Option Fault :=
  (mishaps.find? (·.stage = stage)).map Mishap.fault

theorem faultOf_eq_none {mishaps : List Mishap} {stage : Stage} :
    faultOf mishaps stage = none ↔ ∀ m ∈ mishaps, m.stage ≠ stage := by
  simp [faultOf]

@[simp] theorem faultOf_map (time : Nat) (stage stage' : Stage) (fault : Option Fault) :
    faultOf (fault.map (⟨time, stage, ·⟩)).toList stage' =
      if stage = stage' then fault else none := by
  cases fault with
  | none => simp [faultOf]
  | some fault =>
      by_cases same : stage = stage' <;> simp [faultOf, same]

theorem faultOf_append (mishaps mishaps' : List Mishap) (stage : Stage) :
    faultOf (mishaps ++ mishaps') stage = (faultOf mishaps stage).or (faultOf mishaps' stage) := by
  simp [faultOf, List.find?_append, Option.map_or]

/-- The faults that discovery ends with: one that names the catalog, or that it is cancelled. -/
def Discovery.MayFail (cancelled : Bool) (fault : Fault) : Prop :=
  (∃ reason, fault = .discovery reason) ∨ fault = .cancelled ∧ cancelled

theorem Discovery.MayFail.mono {cancelled cancelled' : Bool} {fault : Fault}
    (fails : MayFail cancelled fault) (later : cancelled → cancelled') : MayFail cancelled' fault :=
  fails.imp_right fun ⟨eq, before⟩ => ⟨eq, later before⟩

theorem Discovery.ending_abort (d : Discovery) (cancelled : Bool) :
    d.abort.ending?.bind (Run.discoveryFault cancelled) =
      d.ending?.bind (Run.discoveryFault cancelled) := by
  cases point : d.point <;> simp [abort, ending?, point, Run.discoveryFault]

theorem Worker.ending_aborted (x : Worker) (task : String) :
    x.aborted.ending?.bind (Run.endingFault task) = x.ending?.bind (Run.endingFault task) := by
  cases point : x.point <;> simp [aborted, ending?, cutOff, point, Run.endingFault]

theorem Consumption.ending_abort (c : Consumption) (task : String) :
    c.abort.ending?.bind (Run.endingFault task) = c.ending?.bind (Run.endingFault task) := by
  cases point : c.point <;> simp [abort, ending?, cutOff, point, Run.endingFault]

namespace Run

variable {w : World} {s : Settings} {r r' : Run} {d d' : Discovery} {c c' : Consumption}

/-- What the worker with an index broke down with. -/
def workerBlame (r : Run) (i : Nat) : Option Fault :=
  (r.workers[i]?.bind Worker.ending?).bind (endingFault "transform worker")

/-- What a stage broke down with. -/
def blame (r : Run) : Stage → Option Fault
  | .discovery => (r.discovery.bind Discovery.ending?).bind (discoveryFault r.hub.cancelled)
  | .workers => (List.range r.workers.length).findSome? r.workerBlame
  | .consumption => (r.consumption.bind Consumption.ending?).bind (endingFault "consumption")

/-- The mishap that an action led to. -/
def downfall (r : Run) : Action → Option Mishap
  | .discovery => (r.blame .discovery).map (⟨r.hub.now, .discovery, ·⟩)
  | .worker i => (r.workerBlame i).map (⟨r.hub.now, .workers, ·⟩)
  | .consumption => (r.blame .consumption).map (⟨r.hub.now, .consumption, ·⟩)
  | .supervisor _ | .lone | .collector | .cancel | .tick _ => none

/-- Only discovery ends with a fault; the others end well, or they panic. -/
structure Faults (r : Run) (d : Discovery) (c : Consumption) : Prop where
  discovery : ∀ fault, d.point = .ended (.faulted fault) →
    Discovery.MayFail r.hub.cancelled fault
  workers : ∀ x ∈ r.workers, ∀ fault, x.point ≠ .ended (.faulted fault)
  consumption : ∀ fault, c.point ≠ .ended (.faulted fault)

theorem faults_launch (s : Settings) (now : Nat) (cancelled : Bool) :
    Faults (fresh s now cancelled).launch (firstDiscovery s) (firstConsumption s) where
  discovery _ ended := by cases ended
  workers x mem fault := by
    obtain rfl := List.eq_of_mem_replicate mem
    simp
  consumption _ ended := by cases ended

theorem Faults.discovery_moves {hub : Hub} (faults : Faults r d c) (coherent : Coherent s r d c)
    (moved : d.Moves w r.hub hub d') : Faults { r with hub, discovery := some d' } d' c := by
  refine { faults with discovery := ?_ }
  intro fault ended
  cases moved with
  | firstScanFails due messages => cases ended; exact .inl ⟨_, rfl⟩
  | giveUp s rest at_ below cancelled =>
      cases ended
      refine .inr ⟨rfl, ?_⟩
      exact (Discovery.leftBehind_kept d r.hub).cancelled.trans cancelled
  | refused s rest at_ below live closed =>
      have going : ¬d.Over := by
        rintro ⟨e, finished⟩
        rw [at_] at finished
        cases finished
      rw [coherent.work_open live going] at closed
      cases closed
  | scan | panic | list | publish | complete | rest | stop | wake => cases ended

theorem Faults.worker {i : Nat} {x x' : Worker} {hub : Hub} (faults : Faults r d c)
    (order : InOrder r d c) (at_ : r.workers[i]? = some x)
    (moved : x.Moves w r.settings r.hub hub x') :
    Faults { r with hub, workers := r.workers.set i x' } d c := by
  have kept := moved.kept
  refine { faults with discovery := ?_, workers := ?_ }
  · intro fault ended
    exact (faults.discovery fault ended).mono fun before => kept.cancelled.trans before
  · intro y mem fault ended
    obtain old | rfl := List.mem_or_eq_of_mem_set mem
    · exact faults.workers y old fault ended
    · have opened := order.artifacts_open at_ moved
      cases moved with
      | refused set handing live closed => rw [opened] at closed; cases closed
      | leave | take | attempt | transformed | failed | abandon | panic | abandonSet | hand =>
          cases ended

theorem Faults.consumption_moves {hub : Hub} (faults : Faults r d c)
    (moved : c.Moves w r.hub hub c') : Faults { r with hub, consumption := some c' } d c' := by
  have kept := moved.kept
  refine { faults with discovery := ?_, consumption := ?_ }
  · intro fault ended
    exact (faults.discovery fault ended).mono fun before => kept.cancelled.trans before
  · intro fault ended
    cases moved with
    | leave | take | reject | reset | offer | offerAfterReset | panic | refuse | accept =>
        cases ended

/-- A task that is ended from outside ends without a fault. -/
theorem Faults.supervisor (faults : Faults r d c) (h : Supervises r d c r' d' c') :
    Faults r' d' c' := by
  have attended := h.attended
  obtain ⟨ofDiscovery, ofConsumption⟩ := h.tasks
  refine ⟨?_, ?_, ?_⟩
  · intro fault ended
    have before : d.point = .ended (.faulted fault) := by
      obtain rfl | rfl := ofDiscovery
      · exact ended
      · unfold Discovery.abort at ended
        split at ended
        · exact ended
        · cases ended
    exact (faults.discovery fault before).mono attended.cancelled
  · intro x mem fault ended
    obtain ⟨same, _⟩ | ⟨_, all, _⟩ := attended.workers
    · exact faults.workers x (same ▸ mem) fault ended
    · rw [all] at mem
      obtain ⟨y, old, rfl⟩ := List.mem_map.mp mem
      unfold Worker.aborted at ended
      split at ended
      · exact faults.workers y old fault ended
      · cases ended
  · intro fault ended
    obtain rfl | rfl := ofConsumption
    · exact faults.consumption fault ended
    · unfold Consumption.abort at ended
      split at ended
      · exact faults.consumption fault ended
      · cases ended

theorem Faults.works (faults : Faults r d c) (coherent : Coherent s r d c)
    (h : Works w r d c r' d' c') : Faults r' d' c' := by
  cases h with
  | discovery hub _ moved => exact faults.discovery_moves coherent moved
  | worker i x x' hub at_ moved => exact faults.worker coherent.order at_ moved
  | consumption hub _ moved => exact faults.consumption_moves moved
  | supervisor supervises => exact faults.supervisor supervises

theorem Faults.cancel (faults : Faults r d c) : Faults r.cancel d c :=
  { faults with
    discovery := fun fault ended => (faults.discovery fault ended).mono fun _ => rfl }

/-- Whether the run is cancelled later does not change what discovery ended with. -/
theorem Faults.discoveryFault (faults : Faults r d c) {cancelled : Bool}
    (later : r.hub.cancelled → cancelled) :
    d.ending?.bind (Run.discoveryFault cancelled) =
      d.ending?.bind (Run.discoveryFault r.hub.cancelled) := by
  cases ends : d.ending? with
  | none => rfl
  | some e =>
      cases e with
      | returned | panicked | aborted => rfl
      | faulted fault =>
          obtain ⟨reason, rfl⟩ | ⟨rfl, before⟩ :=
            faults.discovery fault (point_of_discovery_ending ends)
          · simp [Run.discoveryFault]
          · simp [Run.discoveryFault, before, later before]

/-- All workers break down with the same fault. -/
theorem Faults.workerBlame (faults : Faults r d c) {i : Nat} {fault : Fault}
    (blamed : r.workerBlame i = some fault) : fault = panicFault "transform worker" := by
  obtain ⟨e, ended, blamed⟩ := Option.bind_eq_some_iff.mp blamed
  obtain ⟨x, at_, ended⟩ := Option.bind_eq_some_iff.mp ended
  cases e with
  | panicked => exact (Option.some.inj blamed).symm
  | returned | aborted => cases blamed
  | faulted fault =>
      have point := point_of_worker_ending ended
      exact absurd point (faults.workers x (List.mem_of_getElem? at_) fault)

theorem findSome?_of_mem {α β : Type} {f : α → Option β} {b : β} {l : List α} {a : α}
    (uniform : ∀ a b', f a = some b' → b' = b) (mem : a ∈ l) (found : (f a).isSome) :
    l.findSome? f = some b := by
  cases all : l.findSome? f with
  | none => simp [List.findSome?_eq_none_iff.mp all a mem] at found
  | some b' =>
      obtain ⟨a', _, eq⟩ := List.exists_of_findSome?_eq_some all
      rw [uniform a' b' eq]

/-- Where all that can be found is the same, the order of the search does not matter. -/
theorem findSome?_congr_mem {α β : Type} {f : α → Option β} {b : β} {l l' : List α}
    (uniform : ∀ a b', f a = some b' → b' = b) (same : ∀ a, a ∈ l ↔ a ∈ l') :
    l.findSome? f = l'.findSome? f := by
  cases all : l'.findSome? f with
  | none =>
      refine List.findSome?_eq_none_iff.mpr fun a mem => ?_
      exact List.findSome?_eq_none_iff.mp all a ((same a).mp mem)
  | some b' =>
      obtain ⟨a, mem, found⟩ := List.exists_of_findSome?_eq_some all
      obtain rfl := uniform a b' found
      exact findSome?_of_mem uniform ((same a).mpr mem) (by simp [found])

theorem findSome?_cons_of_uniform {α β : Type} {f : α → Option β} {b : β}
    (uniform : ∀ a b', f a = some b' → b' = b) (a : α) (l : List α) :
    (a :: l).findSome? f = (l.findSome? f).or (f a) := by
  cases all : l.findSome? f with
  | none => cases found : f a <;> simp [found, all]
  | some b' =>
      obtain ⟨a', mem, found⟩ := List.exists_of_findSome?_eq_some all
      obtain rfl := uniform a' b' found
      rw [Option.some_or]
      exact findSome?_of_mem uniform (List.mem_cons_of_mem _ mem) (by simp [found])

theorem findSome?_congr {α β : Type} {f g : α → Option β} {l : List α}
    (same : ∀ a ∈ l, f a = g a) : l.findSome? f = l.findSome? g := by
  induction l with
  | nil => rfl
  | cons a l ih =>
      rw [List.findSome?_cons, List.findSome?_cons, same a List.mem_cons_self,
        ih fun a' mem => same a' (List.mem_cons_of_mem _ mem)]

theorem workerBlame_of_over {i : Nat} {x : Worker} (at_ : r.workers[i]? = some x)
    (going : ¬x.Over) : r.workerBlame i = none := by
  simp only [workerBlame, at_, Option.bind_some]
  cases ends : x.ending? with
  | none => rfl
  | some e => exact absurd ⟨e, point_of_worker_ending ends⟩ going

theorem blame_discovery (launched : Launched r d c) :
    r.blame .discovery = d.ending?.bind (Run.discoveryFault r.hub.cancelled) := by
  simp [blame, launched.discovery]

theorem blame_consumption (launched : Launched r d c) :
    r.blame .consumption = c.ending?.bind (endingFault "consumption") := by
  simp [blame, launched.consumption]

theorem blame_discovery_of_going (launched : Launched r d c) (going : ¬d.Over) :
    r.blame .discovery = none := by
  rw [blame_discovery launched]
  cases ends : d.ending? with
  | none => rfl
  | some e => exact absurd ⟨e, point_of_discovery_ending ends⟩ going

theorem blame_consumption_of_going (launched : Launched r d c) (going : ¬c.Over) :
    r.blame .consumption = none := by
  rw [blame_consumption launched]
  cases ends : c.ending? with
  | none => rfl
  | some e => exact absurd ⟨e, point_of_consumption_ending ends⟩ going

theorem blame_workers_congr (crew : r'.workers.length = r.workers.length)
    (same : r'.workerBlame = r.workerBlame) : r'.blame .workers = r.blame .workers := by
  rw [blame, blame, crew, same]

/-- The supervisor takes nothing back, and those whom it ends are not to blame. -/
theorem Supervises.workerBlame (h : Supervises r d c r' d' c') :
    r'.workerBlame = r.workerBlame := by
  funext i
  obtain ⟨same, _⟩ | ⟨_, all, _⟩ := h.attended.workers
  · simp [Run.workerBlame, same]
  · cases at_ : r.workers[i]? with
    | none => simp [Run.workerBlame, all, at_]
    | some x => simpa [Run.workerBlame, all, at_] using x.ending_aborted _

theorem Supervises.blame (h : Supervises r d c r' d' c') (launched : Launched r d c)
    (launched' : Launched r' d' c') (faults : Faults r d c) (stage : Stage) :
    r'.blame stage = r.blame stage := by
  have attended := h.attended
  obtain ⟨ofDiscovery, ofConsumption⟩ := h.tasks
  cases stage with
  | discovery =>
      rw [blame_discovery launched, blame_discovery launched',
        ← faults.discoveryFault attended.cancelled]
      obtain rfl | rfl := ofDiscovery
      · rfl
      · exact d.ending_abort _
  | workers =>
      refine blame_workers_congr ?_ h.workerBlame
      obtain ⟨same, _⟩ | ⟨_, all, _⟩ := attended.workers <;> simp [*]
  | consumption =>
      rw [blame_consumption launched, blame_consumption launched']
      obtain rfl | rfl := ofConsumption
      · rfl
      · exact c.ending_abort _

/-- One worker more may be to blame. -/
theorem blame_workers_set {i : Nat} {x x' : Worker} {hub : Hub} (faults : Faults r d c)
    (faults' : Faults { r with hub, workers := r.workers.set i x' } d c)
    (at_ : r.workers[i]? = some x) (going : ¬x.Over) :
    { r with hub, workers := r.workers.set i x' }.blame .workers =
      (r.blame .workers).or ({ r with hub, workers := r.workers.set i x' }.workerBlame i) := by
  obtain ⟨lt, _⟩ := List.getElem?_eq_some_iff.mp at_
  have before : r.workerBlame i = none := workerBlame_of_over at_ going
  have others (j : Nat) (ne : j ≠ i) :
      { r with hub, workers := r.workers.set i x' }.workerBlame j = r.workerBlame j := by
    simp [workerBlame, List.getElem?_set_ne ne.symm]
  simp only [blame, List.length_set]
  cases all : (List.range r.workers.length).findSome? r.workerBlame with
  | some fault =>
      obtain ⟨j, mem, blamed⟩ := List.exists_of_findSome?_eq_some all
      have ne : j ≠ i := by
        rintro rfl
        simp [before] at blamed
      obtain rfl := faults.workerBlame blamed
      rw [Option.some_or]
      exact findSome?_of_mem (fun _ _ => faults'.workerBlame) mem (by simp [others j ne, blamed])
  | none =>
      rw [Option.none_or]
      cases own : { r with hub, workers := r.workers.set i x' }.workerBlame i with
      | some fault =>
          obtain rfl := faults'.workerBlame own
          exact findSome?_of_mem (fun _ _ => faults'.workerBlame) (List.mem_range.mpr lt)
            (by simp [own])
      | none =>
          refine List.findSome?_eq_none_iff.mpr fun j mem => ?_
          by_cases eq : j = i
          · rw [eq, own]
          · rw [others j eq]
            exact List.findSome?_eq_none_iff.mp all j mem

theorem workerBlame_launch (s : Settings) (now : Nat) (cancelled : Bool) (i : Nat) :
    (fresh s now cancelled).launch.workerBlame i = none := by
  cases at_ : (fresh s now cancelled).launch.workers[i]? with
  | none => simp [workerBlame, at_]
  | some x =>
      obtain rfl := List.eq_of_mem_replicate (List.mem_of_getElem? at_)
      exact workerBlame_of_over at_ (by rintro ⟨e, ended⟩; cases ended)

theorem blame_launch (s : Settings) (now : Nat) (cancelled : Bool) (stage : Stage) :
    (fresh s now cancelled).launch.blame stage = none := by
  cases stage with
  | discovery | consumption => rfl
  | workers => exact List.findSome?_eq_none_iff.mpr fun i _ => workerBlame_launch s now cancelled i

theorem downfall_launch (s : Settings) (now : Nat) (cancelled : Bool) (a : Action) :
    (fresh s now cancelled).launch.downfall a = none := by
  cases a with
  | worker i => simp [downfall, workerBlame_launch]
  | discovery | consumption | supervisor | lone | collector | cancel | tick => rfl

theorem time_of_downfall {a : Action} {m : Mishap} (fell : r.downfall a = some m) :
    m.time = r.hub.now := by
  cases a with
  | discovery | worker | consumption =>
      obtain ⟨_, _, rfl⟩ := Option.map_eq_some_iff.mp fell
      rfl
  | supervisor | lone | collector | cancel | tick => cases fell

/-- A stage is to blame for what it was to blame for before, or for the mishap. -/
theorem Acts.blame {a : Action} (h : Acts w r d c a r' d' c') (coherent : Coherent s r d c)
    (faults : Faults r d c) (stage : Stage) :
    r'.blame stage = (r.blame stage).or (faultOf (r'.downfall a).toList stage) := by
  have launched := coherent.launched
  have faults' := faults.works coherent h.works
  cases h with
  | discovery hub _ moved =>
      rw [downfall, faultOf_map]
      cases stage with
      | discovery => simp [blame_discovery_of_going launched moved.not_over]
      | workers =>
          rw [if_neg (by simp), Option.or_none]
          exact blame_workers_congr rfl rfl
      | consumption => simp [Run.blame]
  | worker i x x' hub at_ moved =>
      rw [downfall, faultOf_map]
      cases stage with
      | discovery => simp [Run.blame, moved.kept.cancelled]
      | workers => simpa using blame_workers_set faults faults' at_ moved.not_over
      | consumption => simp [Run.blame]
  | consumption hub _ moved =>
      rw [downfall, faultOf_map]
      cases stage with
      | discovery => simp [Run.blame, moved.kept.cancelled]
      | workers =>
          rw [if_neg (by simp), Option.or_none]
          exact blame_workers_congr rfl rfl
      | consumption => simp [blame_consumption_of_going launched moved.not_over]
  | supervisor signal _ supervises =>
      have launched' := (Works.supervisor (w := w) supervises).launched launched
      simpa [downfall, faultOf] using supervises.blame launched launched' faults stage

theorem owns_of_blame {stage : Stage} {fault : Fault} (launched : Launched r d c)
    (faults : Faults r d c) (blamed : r.blame stage = some fault) : stage.Owns fault := by
  cases stage with
  | workers =>
      obtain ⟨i, _, found⟩ := List.exists_of_findSome?_eq_some blamed
      exact faults.workerBlame found
  | discovery =>
      rw [blame_discovery launched] at blamed
      obtain ⟨e, ends, blamed⟩ := Option.bind_eq_some_iff.mp blamed
      cases e with
      | returned | aborted => cases blamed
      | panicked => exact .inr (Option.some.inj blamed).symm
      | faulted fault' =>
          simp only [Run.discoveryFault, Option.ite_none_left_eq_some] at blamed
          obtain ⟨unexpected, eq⟩ := blamed
          obtain rfl := Option.some.inj eq
          obtain reason | ⟨rfl, cancelled⟩ :=
            faults.discovery fault' (point_of_discovery_ending ends)
          · exact .inl reason
          · exact absurd ⟨cancelled, .inl rfl⟩ unexpected
  | consumption =>
      rw [blame_consumption launched] at blamed
      obtain ⟨e, ends, blamed⟩ := Option.bind_eq_some_iff.mp blamed
      cases e with
      | returned | aborted => cases blamed
      | panicked => exact (Option.some.inj blamed).symm
      | faulted fault' =>
          exact absurd (point_of_consumption_ending ends) (faults.consumption fault')

end Run

end DecodePipeline
