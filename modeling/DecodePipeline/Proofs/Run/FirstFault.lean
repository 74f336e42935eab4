import DecodePipeline.Proofs.Run.Blame

/-!
Which fault a run reports. The supervisor learns what a task broke down with when it joins the
task, and it joins discovery before the workers and these before consumption. So the report is
on the first stage in this order that broke down, whichever broke down first; a stage that is
given up when the deadline passes is left out. What is recorded is not replaced.
-/

namespace DecodePipeline

namespace Stage

/-- The stages as the supervisor joins them. -/
def order : List Stage := [discovery, workers, consumption]

def turn : Stage → Nat
  | discovery => 0
  | workers => 1
  | consumption => 2

theorem findSome?_order {β : Type} {g : Stage → Option β} {b : β} :
    order.findSome? g = some b ↔
      ∃ stage, g stage = some b ∧ ∀ earlier, earlier.turn < stage.turn → g earlier = none := by
  constructor
  · intro found
    cases d : g discovery with
    | some => exact ⟨discovery, by simpa [order, d] using found, by simp [turn]⟩
    | none =>
        cases x : g workers with
        | some =>
            refine ⟨workers, by simpa [order, d, x] using found, ?_⟩
            rintro (_ | _ | _) <;> simp [turn, d]
        | none =>
            refine ⟨consumption, by simpa [order, d, x] using found, ?_⟩
            rintro (_ | _ | _) <;> simp [turn, d, x]
  · rintro ⟨stage, found, nothing⟩
    have d := nothing discovery
    have x := nothing workers
    cases stage with
    | discovery => simp [order, found]
    | workers => simp [order, found, d (by simp [turn])]
    | consumption => simp [order, found, d (by simp [turn]), x (by simp [turn])]

theorem findSome?_order_eq {β : Type} (g : Stage → Option β) :
    order.findSome? g = ((g discovery).or (g workers)).or (g consumption) := by
  cases d : g discovery <;> cases x : g workers <;> cases c : g consumption <;>
    simp [order, d, x, c]

end Stage

/-- The fault that is reported, with the stages that were given up. -/
def reported (mishaps : List Mishap) (givenUp : List Stage) : Option Fault :=
  Stage.order.findSome? fun stage => if stage ∈ givenUp then none else faultOf mishaps stage

/-- The first mishap is reported unless its stage was given up, or one of a stage that is joined
earlier followed. -/
theorem reported_eq_first_iff {first : Mishap} {later : List Mishap} {givenUp : List Stage}
    (distinct : ∀ stage, faultOf (first :: later) stage = some first.fault → stage = first.stage) :
    reported (first :: later) givenUp = some first.fault ↔
      first.stage ∉ givenUp ∧
        ∀ m ∈ later, m.stage ∉ givenUp → first.stage.turn ≤ m.stage.turn := by
  have own : faultOf (first :: later) first.stage = some first.fault := by simp [faultOf]
  rw [reported, Stage.findSome?_order]
  constructor
  · rintro ⟨stage, found, nothing⟩
    obtain ⟨kept, found⟩ := Option.ite_none_left_eq_some.mp found
    obtain rfl := distinct stage found
    refine ⟨kept, fun m mem counts => ?_⟩
    by_contra earlier
    have none := nothing m.stage (Nat.lt_of_not_le earlier)
    rw [if_neg counts] at none
    exact faultOf_eq_none.mp none m (List.mem_cons_of_mem _ mem) rfl
  · rintro ⟨kept, after⟩
    refine ⟨first.stage, (if_neg kept).trans own, fun earlier before => ?_⟩
    split
    · rfl
    · next counts =>
        refine faultOf_eq_none.mpr ?_
        rintro m mem rfl
        obtain rfl | mem := List.mem_cons.mp mem
        · exact Nat.lt_irrefl _ before
        · exact Nat.not_le_of_lt before (after m mem counts)

/-- The wait for a stage is over. -/
def Supervisor.Phase.past (phase : Supervisor.Phase) : Stage → Prop
  | .discovery => phase.pastDiscovery
  | .workers => phase.pastWorkers
  | .consumption => phase = .stopped

theorem Supervisor.Phase.not_past {phase : Supervisor.Phase} (early : phase.pastDiscovery = false)
    (stage : Stage) : ¬phase.past stage := by
  cases phase <;> cases stage <;> simp_all [past]

theorem Supervisor.Phase.past_stopped (stage : Stage) : stopped.past stage := by
  cases stage <;> rfl

namespace Run

variable {w : World} {s : Settings} {r r' : Run} {d d' : Discovery} {c c' : Consumption}

/-- All that broke down in the course of a run. -/
def mishaps (w : World) (r : Run) (actions : List Action) : List Mishap :=
  chronicle w (fun _ a r' => (r'.downfall a).toList) r actions

/-- The stage that is given up when the deadline passes in a phase. -/
def forgone : Supervisor.Phase → Option Stage
  | .awaitingDiscovery => some .discovery
  | .awaitingConsumption _ => some .consumption
  | .idle | .launching | .watching | .awaitingWorkers | .stopped => none

/-- The stage that the supervisor gives up by an action. -/
def abandons (r : Run) (a : Action) : Option Stage :=
  if a = .supervisor .deadline then forgone r.supervisor.phase else none

theorem append_abandons {r : Run} {a : Action} (other : a ≠ .supervisor .deadline)
    (givenUp : List Stage) : givenUp ++ (r.abandons a).toList = givenUp := by
  simp [abandons, other]

/-- The stages that the supervisor gave up in the course of a run. -/
def givenUp (w : World) (r : Run) (actions : List Action) : List Stage :=
  chronicle w (fun r a _ => (r.abandons a).toList) r actions

/-- The mishaps of a run so far, as they happened. -/
structure Noticed (mishaps : List Mishap) (r : Run) : Prop where
  first : ∀ stage, faultOf mishaps stage = r.blame stage
  past : ∀ m ∈ mishaps, m.time ≤ r.hub.now
  ordered : mishaps.Pairwise (·.time ≤ ·.time)

theorem Noticed.more {mishaps : List Mishap} {more : Option Mishap} (noticed : Noticed mishaps r)
    (first : ∀ stage, r'.blame stage = (r.blame stage).or (faultOf more.toList stage))
    (later : r.hub.now ≤ r'.hub.now) (time : ∀ m ∈ more, m.time = r'.hub.now) :
    Noticed (mishaps ++ more.toList) r' where
  first stage := by
    rw [first, ← noticed.first, faultOf_append]
  past m mem := by
    obtain old | new := List.mem_append.mp mem
    · exact Nat.le_trans (noticed.past m old) later
    · exact Nat.le_of_eq (time m (by simpa using new))
  ordered := by
    refine List.pairwise_append.mpr ⟨noticed.ordered, by cases more <;> simp, ?_⟩
    intro m old m' new
    rw [time m' (by simpa using new)]
    exact Nat.le_trans (noticed.past m old) later

/-- What the supervisor has on record when it has come to its phase. -/
def onRecord (r : Run) (givenUp : List Stage) : Option Fault :=
  let counted stage := if stage ∈ givenUp then none else r.blame stage
  match r.supervisor.phase with
  | .idle | .launching | .watching | .awaitingDiscovery => none
  | .awaitingWorkers => (counted .discovery).or (r.supervisor.joined.findSome? r.workerBlame)
  | .awaitingConsumption _ => (counted .discovery).or (counted .workers)
  | .stopped => Stage.order.findSome? counted

/-- The supervisor has recorded what the stages that it joined are to blame for. It gives up
discovery and consumption only, each at the end of the wait for it. -/
structure Collected (givenUp : List Stage) (r : Run) : Prop where
  recorded : r.supervisor.firstFault = r.onRecord givenUp
  unjoined : r.supervisor.phase.pastDiscovery = false → r.supervisor.joined = []
  workers : .workers ∉ givenUp
  waited : ∀ stage ∈ givenUp, r.supervisor.phase.past stage

theorem collected_launch (s : Settings) (now : Nat) (cancelled : Bool) :
    Collected [] (fresh s now cancelled).launch where
  recorded := rfl
  unjoined _ := rfl
  workers := List.not_mem_nil
  waited _ mem := by cases mem

section

variable {givenUp : List Stage}

theorem onRecord_early (early : r.supervisor.phase.pastDiscovery = false) :
    r.onRecord givenUp = none := by
  rw [onRecord]
  cases phase : r.supervisor.phase with
  | idle | launching | watching | awaitingDiscovery => rfl
  | awaitingWorkers | awaitingConsumption | stopped => simp [phase] at early

theorem onRecord_awaitingWorkers (phase : r.supervisor.phase = .awaitingWorkers) :
    r.onRecord givenUp =
      (if .discovery ∈ givenUp then none else r.blame .discovery).or
        (r.supervisor.joined.findSome? r.workerBlame) := by
  simp only [onRecord, phase]

theorem onRecord_awaitingConsumption {limit : Option Nat}
    (phase : r.supervisor.phase = .awaitingConsumption limit) :
    r.onRecord givenUp =
      (if .discovery ∈ givenUp then none else r.blame .discovery).or
        (if .workers ∈ givenUp then none else r.blame .workers) := by
  simp only [onRecord, phase]

theorem onRecord_stopped (phase : r.supervisor.phase = .stopped) :
    r.onRecord givenUp =
      Stage.order.findSome? fun stage => if stage ∈ givenUp then none else r.blame stage := by
  simp only [onRecord, phase]

/-- The record stays as it is while no stage is joined and none that was joined changes. -/
theorem Collected.congr (collected : Collected givenUp r)
    (phase : r'.supervisor.phase = r.supervisor.phase)
    (joined : r'.supervisor.joined = r.supervisor.joined)
    (fault : r'.supervisor.firstFault = r.supervisor.firstFault)
    (workers : r.supervisor.joined.findSome? r'.workerBlame =
      r.supervisor.joined.findSome? r.workerBlame)
    (same : ∀ stage, r.supervisor.phase.past stage → r'.blame stage = r.blame stage) :
    Collected givenUp r' where
  recorded := by
    rw [fault, collected.recorded]
    simp only [onRecord, phase, joined]
    cases at_ : r.supervisor.phase with
    | idle | launching | watching | awaitingDiscovery => rfl
    | awaitingWorkers =>
        rw [at_] at same
        simp only [same .discovery rfl, workers]
    | awaitingConsumption =>
        rw [at_] at same
        simp only [same .discovery rfl, same .workers rfl]
    | stopped =>
        rw [at_] at same
        simp only [same _ (Supervisor.Phase.past_stopped _)]
  unjoined early := by
    rw [joined]
    exact collected.unjoined (phase ▸ early)
  workers := collected.workers
  waited stage mem := phase ▸ collected.waited stage mem

theorem Collected.further (collected : Collected givenUp r) (more : Option Stage)
    (recorded : r'.supervisor.firstFault = r'.onRecord (givenUp ++ more.toList))
    (past : ∀ stage, r.supervisor.phase.past stage → r'.supervisor.phase.past stage)
    (unjoined : r'.supervisor.phase.pastDiscovery = false →
      r'.supervisor.joined = r.supervisor.joined)
    (waited : ∀ stage ∈ more, stage ≠ .workers ∧ r'.supervisor.phase.past stage) :
    Collected (givenUp ++ more.toList) r' where
  recorded := recorded
  unjoined early := by
    rw [unjoined early, collected.unjoined]
    exact Bool.eq_false_iff.mpr fun finished => Bool.eq_false_iff.mp early (past .discovery finished)
  workers mem := by
    obtain old | new := List.mem_append.mp mem
    · exact collected.workers old
    · exact (waited _ (Option.mem_toList.mp new)).1 rfl
  waited stage mem := by
    obtain old | new := List.mem_append.mp mem
    · exact past stage (collected.waited stage old)
    · exact (waited _ (Option.mem_toList.mp new)).2

theorem Collected.moves (collected : Collected givenUp r)
    (recorded : r'.supervisor.firstFault = r'.onRecord givenUp)
    (past : ∀ stage, r.supervisor.phase.past stage → r'.supervisor.phase.past stage)
    (unjoined : r'.supervisor.phase.pastDiscovery = false →
      r'.supervisor.joined = r.supervisor.joined) : Collected givenUp r' := by
  rw [← List.append_nil givenUp] at recorded ⊢
  exact collected.further none recorded past unjoined (by simp)

theorem Collected.joins (collected : Collected givenUp r)
    (recorded : r'.supervisor.firstFault = r'.onRecord givenUp)
    (past : ∀ stage, r.supervisor.phase.past stage → r'.supervisor.phase.past stage)
    (late : r'.supervisor.phase.pastDiscovery) : Collected givenUp r' := by
  refine collected.moves recorded past fun early => ?_
  rw [late] at early
  cases early

theorem Collected.discoveryJoined (collected : Collected givenUp r)
    (same : r'.blame .discovery = r.blame .discovery)
    (early : r.supervisor.phase.pastDiscovery = false)
    (phase : r'.supervisor.phase = .awaitingWorkers)
    (joined : r'.supervisor.joined = r.supervisor.joined)
    (fault : r'.supervisor.firstFault = r.supervisor.firstFault.or (r.blame .discovery)) :
    Collected givenUp r' := by
  have unpast := Supervisor.Phase.not_past early
  have kept : .discovery ∉ givenUp := fun mem => unpast _ (collected.waited _ mem)
  refine collected.joins ?_ (fun stage past => absurd past (unpast stage)) (by rw [phase]; rfl)
  rw [fault, collected.recorded, onRecord_early early, onRecord_awaitingWorkers phase, joined,
    collected.unjoined early, same]
  simp [kept]

theorem Collected.workerJoined {i : Nat} (collected : Collected givenUp r)
    (faults : Faults r d c) (same : ∀ stage, r'.blame stage = r.blame stage)
    (sameWorkers : r'.workerBlame = r.workerBlame)
    (before : r.supervisor.phase = .awaitingWorkers)
    (phase : r'.supervisor.phase = .awaitingWorkers)
    (joined : r'.supervisor.joined = i :: r.supervisor.joined)
    (fault : r'.supervisor.firstFault = r.supervisor.firstFault.or (r.workerBlame i)) :
    Collected givenUp r' := by
  refine collected.joins ?_ (fun stage past => ?_) (by rw [phase]; rfl)
  · rw [fault, collected.recorded, onRecord_awaitingWorkers before, onRecord_awaitingWorkers phase,
      joined, same, sameWorkers, Option.or_assoc,
      findSome?_cons_of_uniform (fun _ _ => faults.workerBlame) i]
  · rw [phase, ← before]
    exact past

theorem Collected.workersJoined {limit : Option Nat} (collected : Collected givenUp r)
    (order : InOrder r d c) (faults : Faults r d c)
    (same : ∀ stage, r'.blame stage = r.blame stage)
    (before : r.supervisor.phase = .awaitingWorkers)
    (all : r.supervisor.joined.length = r.workers.length)
    (phase : r'.supervisor.phase = .awaitingConsumption limit)
    (fault : r'.supervisor.firstFault = r.supervisor.firstFault) :
    Collected givenUp r' := by
  have joined : r.supervisor.joined.findSome? r.workerBlame = r.blame .workers := by
    refine findSome?_congr_mem (fun _ _ => faults.workerBlame) fun i => ?_
    exact ⟨fun mem => order.joined_within mem,
      fun mem => order.joined_of_all_joined all (List.mem_range.mp mem)⟩
  refine collected.joins ?_ (fun stage past => ?_) (by rw [phase]; rfl)
  · rw [fault, collected.recorded, onRecord_awaitingWorkers before,
      onRecord_awaitingConsumption phase, same, same, joined, if_neg collected.workers]
  · rw [before] at past
    cases stage with
    | discovery => rw [phase]; rfl
    | workers | consumption => cases past

/-- Consumption is joined, or it is given up. -/
theorem Collected.stopped {more : Option Stage} {limit : Option Nat}
    (collected : Collected givenUp r) (same : ∀ stage, r'.blame stage = r.blame stage)
    (before : r.supervisor.phase = .awaitingConsumption limit)
    (phase : r'.supervisor.phase = .stopped)
    (last : more = none ∨ more = some .consumption)
    (fault : r'.supervisor.firstFault =
      r.supervisor.firstFault.or (if more = none then r.blame .consumption else none)) :
    Collected (givenUp ++ more.toList) r' := by
  have kept : .consumption ∉ givenUp := by
    intro mem
    have stopped := collected.waited _ mem
    rw [before] at stopped
    cases stopped
  have past (stage : Stage) : r'.supervisor.phase.past stage :=
    phase ▸ Supervisor.Phase.past_stopped stage
  refine collected.further _ ?_ (fun stage _ => past stage) (fun early => ?_) ?_
  · rw [fault, collected.recorded, onRecord_awaitingConsumption before, onRecord_stopped phase,
      Stage.findSome?_order_eq]
    obtain rfl | rfl := last <;> simp [same, kept]
  · simp [phase] at early
  · obtain rfl | rfl := last <;> simp [past]

theorem supervise_launch (begun : r.supervisor.phase ≠ .launching) :
    r.supervise .launch = none := by
  unfold Run.supervise
  cases phase : r.supervisor.phase with
  | launching => exact absurd phase begun
  | idle | watching | awaitingDiscovery | awaitingWorkers | awaitingConsumption | stopped => rfl

theorem Collected.discoveryEnded (collected : Collected givenUp r)
    (same : r'.blame .discovery = r.blame .discovery)
    (h : r.supervise .discoveryEnded = some r') : Collected givenUp r' := by
  unfold Run.supervise at h
  cases phase : r.supervisor.phase with
  | watching =>
      rw [phase] at h
      obtain ⟨e, ended, rfl⟩ := Option.map_eq_some_iff.mp h
      rw [afterDiscovery_eq] at same ⊢
      refine collected.discoveryJoined same (by rw [phase]; rfl) rfl rfl ?_
      simp [noted, drain, enter, blame, ended]
  | awaitingDiscovery =>
      rw [phase] at h
      obtain ⟨e, ended, rfl⟩ := Option.map_eq_some_iff.mp h
      rw [afterDiscovery_eq] at same ⊢
      refine collected.discoveryJoined same (by rw [phase]; rfl) rfl rfl ?_
      simp [noted, enter, blame, ended]
  | idle | launching | awaitingWorkers | awaitingConsumption | stopped =>
      rw [phase] at h
      cases h

theorem Collected.interrupted (collected : Collected givenUp r)
    (h : r.supervise .cancellation = some r') : Collected givenUp r' := by
  unfold Run.supervise at h
  cases phase : r.supervisor.phase with
  | watching =>
      rw [phase] at h
      obtain ⟨_, eq⟩ := Option.ite_none_right_eq_some.mp h
      cases eq
      have early : r.supervisor.phase.pastDiscovery = false := by rw [phase]; rfl
      have unpast := Supervisor.Phase.not_past early
      refine collected.moves ?_ (fun stage past => absurd past (unpast stage)) (fun _ => rfl)
      rw [onRecord_early rfl, ← onRecord_early (r := r) early]
      exact collected.recorded
  | idle | launching | awaitingDiscovery | awaitingWorkers | awaitingConsumption | stopped =>
      rw [phase] at h
      cases h

theorem Collected.armed (collected : Collected givenUp r)
    (same : ∀ stage, r'.blame stage = r.blame stage) (sameWorkers : r'.workerBlame = r.workerBlame)
    (h : r.supervise .arm = some r') : Collected givenUp r' := by
  unfold Run.supervise at h
  cases phase : r.supervisor.phase with
  | awaitingWorkers | awaitingConsumption =>
      rw [phase] at h
      obtain ⟨_, eq⟩ := Option.ite_none_right_eq_some.mp h
      cases eq
      exact collected.congr rfl rfl rfl (by rw [sameWorkers]) fun stage _ => same stage
  | idle | launching | watching | awaitingDiscovery | stopped =>
      rw [phase] at h
      cases h

theorem Collected.workerEnded (collected : Collected givenUp r) (faults : Faults r d c)
    (same : ∀ stage, r'.blame stage = r.blame stage) (sameWorkers : r'.workerBlame = r.workerBlame)
    (h : r.supervise .workerEnded = some r') : Collected givenUp r' := by
  unfold Run.supervise at h
  cases phase : r.supervisor.phase with
  | awaitingWorkers =>
      rw [phase] at h
      obtain ⟨⟨i, e⟩, found, rfl⟩ := Option.map_eq_some_iff.mp h
      obtain ⟨_, _, x, at_, ended⟩ := nextEnded_spec found
      rw [Nat.sub_zero] at at_
      dsimp only at same sameWorkers ⊢
      rw [afterWorker_eq] at same sameWorkers ⊢
      refine collected.workerJoined (i := i) faults same sameWorkers phase phase rfl ?_
      have blamed : r.workerBlame i = endingFault "transform worker" e := by
        simp [Run.workerBlame, at_, Worker.ending?, ended]
      simp [noted, blamed]
  | idle | launching | watching | awaitingDiscovery | awaitingConsumption | stopped =>
      rw [phase] at h
      cases h

theorem Collected.workersGone (collected : Collected givenUp r) (order : InOrder r d c)
    (faults : Faults r d c) (same : ∀ stage, r'.blame stage = r.blame stage)
    (h : r.supervise .workersGone = some r') : Collected givenUp r' := by
  unfold Run.supervise at h
  cases phase : r.supervisor.phase with
  | awaitingWorkers =>
      rw [phase] at h
      obtain ⟨all, eq⟩ := Option.ite_none_right_eq_some.mp h
      cases eq
      exact collected.workersJoined order faults same phase all rfl rfl
  | idle | launching | watching | awaitingDiscovery | awaitingConsumption | stopped =>
      rw [phase] at h
      cases h

theorem Collected.consumptionEnded (collected : Collected givenUp r)
    (same : ∀ stage, r'.blame stage = r.blame stage)
    (h : r.supervise .consumptionEnded = some r') : Collected givenUp r' := by
  unfold Run.supervise at h
  cases phase : r.supervisor.phase with
  | awaitingConsumption =>
      rw [phase] at h
      obtain ⟨e, ended, rfl⟩ := Option.map_eq_some_iff.mp h
      rw [afterConsumption_eq] at same ⊢
      rw [← List.append_nil givenUp, ← Option.toList_none]
      refine collected.stopped same phase rfl (.inl rfl) ?_
      simp [stop, enter, noted, blame, ended]
  | idle | launching | watching | awaitingDiscovery | awaitingWorkers | stopped =>
      rw [phase] at h
      cases h

/-- The stage that is waited for is given up, but for the workers: these end at once. -/
theorem Collected.deadline (collected : Collected givenUp r)
    (same : ∀ stage, r'.blame stage = r.blame stage) (sameWorkers : r'.workerBlame = r.workerBlame)
    (h : r.supervise .deadline = some r') :
    Collected (givenUp ++ (forgone r.supervisor.phase).toList) r' := by
  unfold Run.supervise at h
  cases phase : r.supervisor.phase with
  | awaitingDiscovery =>
      rw [phase] at h
      obtain ⟨_, eq⟩ := Option.ite_none_right_eq_some.mp h
      cases eq
      have early : r.supervisor.phase.pastDiscovery = false := by rw [phase]; rfl
      have joined := collected.unjoined early
      have nothing := collected.recorded.trans (onRecord_early early)
      have unpast := Supervisor.Phase.not_past early
      rw [expire, abortWorkers_eq]
      refine collected.further _ ?_ (fun stage past => absurd past (unpast stage)) (fun _ => rfl)
        (by simp [forgone, abortDiscovery, Supervisor.Phase.past])
      rw [onRecord_awaitingWorkers rfl]
      simp [forgone, abortDiscovery, enter, joined, nothing]
  | awaitingWorkers =>
      rw [phase] at h
      obtain ⟨_, eq⟩ := Option.ite_none_right_eq_some.mp h
      cases eq
      rw [expire, abortWorkers_eq] at same sameWorkers ⊢
      rw [forgone, Option.toList_none, List.append_nil]
      exact collected.congr rfl rfl rfl (by rw [sameWorkers]) fun stage _ => same stage
  | awaitingConsumption limit =>
      rw [phase] at h
      simp only [Option.ite_none_right_eq_some] at h
      obtain ⟨_, eq⟩ := h
      cases eq
      refine collected.stopped same phase rfl (.inr rfl) ?_
      simp [stop, enter, abortConsumption, forgone]
  | idle | launching | watching | stopped =>
      rw [phase] at h
      cases h

theorem Collected.supervise {signal : Signal} (collected : Collected givenUp r)
    (coherent : Coherent s r d c) (faults : Faults r d c)
    (same : ∀ stage, r'.blame stage = r.blame stage) (sameWorkers : r'.workerBlame = r.workerBlame)
    (h : r.supervise signal = some r') :
    Collected (givenUp ++ (r.abandons (.supervisor signal)).toList) r' := by
  by_cases passes : signal = .deadline
  · subst passes
    rw [abandons, if_pos rfl]
    exact collected.deadline same sameWorkers h
  · rw [append_abandons (by simp [passes])]
    cases signal with
    | launch =>
        rw [supervise_launch coherent.launched.phase.2] at h
        cases h
    | discoveryEnded => exact collected.discoveryEnded (same _) h
    | cancellation => exact collected.interrupted h
    | arm => exact collected.armed same sameWorkers h
    | workerEnded => exact collected.workerEnded faults same sameWorkers h
    | workersGone => exact collected.workersGone coherent.order faults same h
    | consumptionEnded => exact collected.consumptionEnded same h
    | deadline => exact absurd rfl passes

theorem Collected.acts {a : Action} (collected : Collected givenUp r)
    (coherent : Coherent s r d c) (faults : Faults r d c) (h : Acts w r d c a r' d' c') :
    Collected (givenUp ++ (r.abandons a).toList) r' := by
  have order := coherent.order
  cases h with
  | discovery hub _ moved =>
      rw [append_abandons (by simp)]
      refine collected.congr rfl rfl rfl rfl fun stage past => ?_
      cases stage with
      | discovery => exact absurd (order.discovery_over past) moved.not_over
      | workers => exact blame_workers_congr rfl rfl
      | consumption => rfl
  | worker i x x' hub at_ moved =>
      rw [append_abandons (by simp)]
      refine collected.congr rfl rfl rfl (findSome?_congr fun j mem => ?_) fun stage past => ?_
      · have other : i ≠ j := fun eq => order.unjoined at_ moved.not_over (eq ▸ mem)
        simp [workerBlame, List.getElem?_set_ne other]
      · cases stage with
        | discovery => simp [blame, moved.kept.cancelled]
        | workers =>
            have finished := order.workers_over (.inr past) x (List.mem_of_getElem? at_)
            exact absurd finished moved.not_over
        | consumption => rfl
  | consumption hub _ moved =>
      rw [append_abandons (by simp)]
      refine collected.congr rfl rfl rfl rfl fun stage past => ?_
      cases stage with
      | discovery => simp [blame, moved.kept.cancelled]
      | workers => exact blame_workers_congr rfl rfl
      | consumption => exact absurd (order.consumption_over past) moved.not_over
  | supervisor signal h supervises =>
      have launched' := (Works.supervisor (w := w) supervises).launched coherent.launched
      have same := supervises.blame coherent.launched launched' faults
      exact collected.supervise coherent faults same supervises.workerBlame h

end

/-- A run whose mishaps and whose stages given up are known. -/
def Traced (s : Settings) (mishaps : List Mishap) (givenUp : List Stage) (r : Run) : Prop :=
  (∃ now cancelled, r = fresh s now cancelled ∧ mishaps = [] ∧ givenUp = []) ∨
    ∃ d c, Coherent s r d c ∧ Faults r d c ∧ Noticed mishaps r ∧ Collected givenUp r

section

variable {mishaps : List Mishap} {givenUp : List Stage}

theorem Traced.happen {a : Action} (traced : Traced s mishaps givenUp r)
    (h : r.happen w a = some r') :
    Traced s (mishaps ++ (r'.downfall a).toList) (givenUp ++ (r.abandons a).toList) r' := by
  obtain ⟨now, cancelled, rfl, rfl, rfl⟩ | ⟨d, c, coherent, faults, noticed, collected⟩ := traced
  · obtain ⟨rfl, rfl⟩ | ⟨time, rfl, _, rfl⟩ | stepped := cases_of_happen h
    · exact .inl ⟨now, true, rfl, rfl, rfl⟩
    · exact .inl ⟨time, cancelled, rfl, rfl, rfl⟩
    · have nothing : (fresh s now cancelled).abandons a = none := ite_self _
      rw [stepTask_fresh stepped, downfall_launch, nothing]
      refine .inr ⟨_, _, coherent_launch s now cancelled, faults_launch s now cancelled, ?_,
        collected_launch s now cancelled⟩
      exact ⟨fun stage => (blame_launch s now cancelled stage).symm, by simp, by simp⟩
  · obtain ⟨rfl, rfl⟩ | ⟨time, rfl, later, rfl⟩ | stepped := cases_of_happen h
    · have same (stage : Stage) : r.cancel.blame stage = r.blame stage := by
        cases stage with
        | discovery =>
            rw [blame_discovery coherent.launched, blame_discovery coherent.launched.cancel]
            exact faults.discoveryFault fun _ => rfl
        | workers => exact blame_workers_congr rfl rfl
        | consumption => rfl
      refine .inr ⟨d, c, coherent.cancel, faults.cancel, ?_, ?_⟩
      · exact noticed.more (by simp [same, downfall, faultOf]) (Nat.le_refl _) (by simp [downfall])
      · rw [append_abandons (by simp)]
        exact collected.congr rfl rfl rfl rfl fun stage _ => same stage
    · have same (stage : Stage) : (setClock time r).blame stage = r.blame stage := by
        cases stage with
        | discovery | consumption => rfl
        | workers => exact blame_workers_congr rfl rfl
      refine .inr ⟨d, c, coherent.clock time, { faults with }, ?_, ?_⟩
      · exact noticed.more (by simp [same, downfall, faultOf]) later (by simp [downfall])
      · rw [append_abandons (by simp)]
        exact collected.congr rfl rfl rfl rfl fun stage _ => same stage
    · obtain ⟨d', c', acts⟩ := coherent.launched.acts stepped
      refine .inr ⟨d', c', coherent.works acts.works, faults.works coherent acts.works, ?_,
        collected.acts coherent faults acts⟩
      exact noticed.more (acts.blame coherent faults) (Nat.le_of_eq acts.works.now.symm)
        fun m fell => time_of_downfall fell

theorem Traced.replay {actions : List Action} (traced : Traced s mishaps givenUp r)
    (course : r.replay w actions = some r') :
    Traced s (mishaps ++ r.mishaps w actions) (givenUp ++ r.givenUp w actions) r' := by
  induction actions generalizing r mishaps givenUp with
  | nil =>
      obtain rfl : r = r' := Option.some.inj course
      simpa [Run.mishaps, Run.givenUp, chronicle] using traced
  | cons a actions ih =>
      obtain ⟨r₁, happens, rest⟩ := replay_cons.mp course
      have all := ih (traced.happen happens) rest
      simpa [Run.mishaps, Run.givenUp, chronicle_cons happens, List.append_assoc] using all

end

theorem traced_of_replay {r₀ : Run} {actions : List Action} (started : begin s = .ok r₀)
    (course : r₀.replay w actions = some r) :
    Traced s (r₀.mishaps w actions) (r₀.givenUp w actions) r := by
  have first : Traced s [] [] r₀ := .inl ⟨0, false, (begin_eq started).2.2, rfl, rfl⟩
  simpa using first.replay course

/-- A reaction of the supervisor replaces no fault. -/
theorem Supervises.firstFault (h : Supervises r d c r' d' c') {fault : Fault}
    (first : r.supervisor.firstFault = some fault) : r'.supervisor.firstFault = some fault := by
  cases h with
  | discoveryOver | discoveryJoined | workerJoined | consumptionJoined =>
      simp [noted, drain, enter, stop, first]
  | interrupted | workersGone | armed | consumptionExpired => exact first
  | discoveryExpired | workersExpired => rw [expire, abortWorkers_eq]; exact first

theorem firstFault_of_happen {a : Action} {fault : Fault} {d : Discovery} {c : Consumption}
    (launched : Launched r d c) (h : r.happen w a = some r')
    (first : r.supervisor.firstFault = some fault) : r'.supervisor.firstFault = some fault := by
  obtain ⟨_, rfl⟩ | ⟨time, _, _, rfl⟩ | stepped := cases_of_happen h
  · exact first
  · exact first
  · obtain ⟨d', c', works⟩ := launched.works stepped
    cases works with
    | discovery | worker | consumption => exact first
    | supervisor supervises => exact supervises.firstFault first

/-- What is recorded once stays. -/
theorem firstFault_of_reached {r₀ r₁ : Run} {fault : Fault} (started : begin s = .ok r₀)
    (before : Relation.ReflTransGen (Change w) r₀ r₁)
    (first : r₁.supervisor.firstFault = some fault)
    (after : Relation.ReflTransGen (Change w) r₁ r) : r.supervisor.firstFault = some fault := by
  induction after with
  | refl => exact first
  | tail reached change ih =>
      obtain ⟨now, cancelled, rfl⟩ | ⟨d, c, coherent⟩ :=
        coherent_of_reached started (before.trans reached)
      · cases ih
      · obtain ⟨a, happens⟩ := change.happens
        exact firstFault_of_happen coherent.launched happens ih

/-- The report of a run that has stopped. It goes by the order of the stages: the mishap that
came first is reported if and only if its stage was not given up and no mishap followed in a
stage that is joined earlier. What is recorded once stays. -/
theorem reports_first_mishap_iff {r₀ : Run} {actions : List Action} (started : begin s = .ok r₀)
    (course : r₀.replay w actions = some r) (stopped : r.lifecycle = .stopped) :
    (r₀.mishaps w actions).Pairwise (·.time ≤ ·.time) ∧
      r.supervisor.firstFault = reported (r₀.mishaps w actions) (r₀.givenUp w actions) ∧
      (∀ before after r₁ fault, actions = before ++ after → r₀.replay w before = some r₁ →
        r₁.supervisor.firstFault = some fault → r.supervisor.firstFault = some fault) ∧
      ∀ first later, r₀.mishaps w actions = first :: later →
        (r.supervisor.firstFault = some first.fault ↔
          first.stage ∉ r₀.givenUp w actions ∧
            ∀ m ∈ later, m.stage ∉ r₀.givenUp w actions → first.stage.turn ≤ m.stage.turn) := by
  have phase := lifecycle_stopped.mp stopped
  obtain ⟨now, cancelled, rfl, _⟩ | ⟨d, c, coherent, faults, noticed, collected⟩ :=
    traced_of_replay started course
  · cases phase
  have report : r.supervisor.firstFault =
      reported (r₀.mishaps w actions) (r₀.givenUp w actions) := by
    rw [collected.recorded, onRecord_stopped phase, reported]
    simp only [noticed.first]
  refine ⟨noticed.ordered, report, ?_, ?_⟩
  · rintro before after r₁ fault rfl first recorded
    obtain ⟨r₁', first', rest⟩ := replay_append.mp course
    obtain rfl := Option.some.inj (first.symm.trans first')
    exact firstFault_of_reached started (reaches_of_replay first) recorded (reaches_of_replay rest)
  · intro first later all
    rw [report, all]
    refine reported_eq_first_iff fun stage found => ?_
    have own : faultOf (r₀.mishaps w actions) first.stage = some first.fault := by
      simp [all, faultOf]
    rw [← all] at found
    rw [noticed.first] at own found
    exact (owns_of_blame coherent.launched faults found).unique
      (owns_of_blame coherent.launched faults own)

/-- Collaborators that break down one after another: the decoder on the first item, the renderer
on the first set, and the catalog when it is asked again. -/
def fragileWorld : World where
  catalog n := if n = 0 then ⟨some 0, .gives threeSources⟩ else ⟨some 0, .panics⟩
  decoder id _ :=
    { delay := some 10
      reply := if id = "a" then .panics else .gives ⟨[Frame.name id 0], [Frame.name id 0]⟩
      heeds := true }
  reset := ⟨some 0, .gives ()⟩
  accept _ _ := ⟨some 5, .panics⟩

/-- Nothing breaks down before the catalog has been listed. -/
theorem mishaps_listed (s : Settings) (actions : List Action) :
    (fresh s 0 false).mishaps fragileWorld
          ([.supervisor .launch, .discovery, .discovery] ++ actions) =
        (listed s).mishaps fragileWorld actions ∧
      (fresh s 0 false).givenUp fragileWorld
          ([.supervisor .launch, .discovery, .discovery] ++ actions) =
        (listed s).givenUp fragileWorld actions := by
  have scanned : (fresh s 0 false).replay fragileWorld
      [.supervisor .launch, .discovery, .discovery] = some (listed s) :=
    replay_of_follow (follow_scanned s rfl [])
  exact ⟨chronicle_append scanned actions, chronicle_append scanned actions⟩

/-- A worker breaks down while discovery goes on, and discovery ten milliseconds later. -/
theorem not_reporting_first_mishap :
    ∃ r actions first second,
      begin { mode := .poll (.ofMillis 20) } =
        .ok (fresh { mode := .poll (.ofMillis 20) } 0 false) ∧
      (fresh { mode := .poll (.ofMillis 20) } 0 false).follow fragileWorld actions = some r ∧
      r.lifecycle = .stopped ∧
      (fresh { mode := .poll (.ofMillis 20) } 0 false).mishaps fragileWorld actions =
        [first, second] ∧
      first.time < second.time ∧ first.fault ≠ second.fault ∧
      r.supervisor.firstFault = some second.fault := by
  let s : Settings := { mode := .poll (.ofMillis 20) }
  let later : List Action :=
    [.discovery, .discovery, .discovery, .discovery, .worker 0, .worker 0, .tick 10, .worker 0,
      .tick 20, .discovery, .discovery, .discovery, .supervisor .discoveryEnded,
      .supervisor .workerEnded, .supervisor .workersGone, .consumption,
      .supervisor .consumptionEnded]
  let first : Mishap := ⟨10, .workers, panicFault "transform worker"⟩
  let second : Mishap := ⟨20, .discovery, panicFault "discovery"⟩
  have arrives : ((listed s).follow fragileWorld later).any (fun r =>
      r.lifecycle = .stopped && r.supervisor.firstFault = some second.fault) := by decide
  have broke : (listed s).mishaps fragileWorld later = [first, second] := by decide
  obtain ⟨r, arrives, holds⟩ := (Option.any_eq_true _ _).mp arrives
  simp only [Bool.and_eq_true, decide_eq_true_eq] at holds
  obtain ⟨stopped, report⟩ := holds
  exact ⟨r, _, first, second, rfl, (follow_scanned s rfl later).trans arrives, stopped,
    (mishaps_listed s later).1.trans broke, by decide, by decide, report⟩

/-- A worker breaks down and then consumption, which is joined later. -/
theorem reports_first_mishap_iff_later_stage :
    ∃ r actions first second,
      begin { workers := 2 } = .ok (fresh { workers := 2 } 0 false) ∧
      (fresh { workers := 2 } 0 false).replay fragileWorld actions = some r ∧
      r.lifecycle = .stopped ∧
      (fresh { workers := 2 } 0 false).mishaps fragileWorld actions = [first, second] ∧
      first.time < second.time ∧ second.stage = .consumption ∧
      r.supervisor.firstFault = some first.fault := by
  let s : Settings := { workers := 2 }
  let later : List Action :=
    [.discovery, .discovery, .discovery, .discovery, .supervisor .discoveryEnded, .worker 0,
      .worker 0, .worker 1, .worker 1, .tick 10, .worker 1, .worker 1, .consumption, .consumption,
      .consumption, .worker 0, .supervisor .workerEnded, .worker 1, .supervisor .workerEnded,
      .supervisor .workersGone, .supervisor .arm, .tick 15, .consumption,
      .supervisor .consumptionEnded]
  let first : Mishap := ⟨10, .workers, panicFault "transform worker"⟩
  let second : Mishap := ⟨15, .consumption, panicFault "consumption"⟩
  have arrives : ((listed s).follow fragileWorld later).any (·.lifecycle = .stopped) := by decide
  obtain ⟨r, arrives, stopped⟩ := (Option.any_eq_true _ _).mp arrives
  have stopped := of_decide_eq_true stopped
  have course := replay_of_follow ((follow_scanned s rfl later).trans arrives)
  have broke := (mishaps_listed s later).1.trans (show _ = [first, second] by decide)
  have kept := (mishaps_listed s later).2.trans (show _ = [] by decide)
  have started : begin s = .ok (fresh s 0 false) := rfl
  obtain ⟨_, _, _, reports⟩ := reports_first_mishap_iff started course stopped
  refine ⟨r, _, first, second, started, course, stopped, broke, by decide, rfl, ?_⟩
  refine (reports first [second] broke).mpr ⟨?_, ?_⟩
  · rw [kept]
    exact List.not_mem_nil
  · intro m mem _
    obtain rfl := List.mem_singleton.mp mem
    decide

end Run

end DecodePipeline
