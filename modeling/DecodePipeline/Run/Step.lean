import DecodePipeline.Run.Supervisor

/-!
The steps of a run. Each action moves one task from one point where it can be held up to the next; the
clock moves only when no task can go on, and never past a point in time that a task waits for. Every
interleaving of actions is a run.
-/

namespace DecodePipeline

namespace Run

inductive Action where
  | supervisor (signal : Signal)
  | discovery
  | worker (index : Nat)
  | lone
  | consumption
  | collector
  | cancel
  | tick (time : Nat)
  deriving Repr, DecidableEq

def stepDiscovery (w : World) (r : Run) : Option Run := do
  let d ← r.discovery
  let (hub, d) ← d.step w r.hub
  return { r with hub, discovery := some d }

def stepWorker (w : World) (r : Run) (i : Nat) : Option Run := do
  let x ← r.workers[i]?
  let (hub, x) ← x.step w r.settings r.hub
  return { r with hub, workers := r.workers.set i x }

def stepLone (w : World) (r : Run) : Option Run := do
  let a ← r.lone
  let (hub, a) ← a.step w r.settings.retry r.settings.transformTimeout r.hub
  return { r with hub, lone := some a }

def stepConsumption (w : World) (r : Run) : Option Run := do
  let c ← r.consumption
  let (hub, c) ← c.step w r.hub
  return { r with hub, consumption := some c }

/-- One look of a collector at its queue, without waiting. -/
def look (r : Run) : Taken × Hub :=
  match r.outlet with
  | .work =>
    match r.hub.work.tryPop with
    | (.item item, work) => (.item item, { r.hub with work })
    | (.empty, _) => (.empty, r.hub)
    | (.closed, _) => (.closed, r.hub)
  | .artifacts =>
    match r.hub.artifacts.tryPop with
    | (.item set, artifacts) => (.set set, { r.hub with artifacts })
    | (.empty, _) => (.empty, r.hub)
    | (.closed, _) => (.closed, r.hub)

def take (r : Run) (hub : Hub) (taken : Taken) (collector : Collector) : Run :=
  { r with hub, taken := r.taken ++ [(r.hub.now, taken)], collector }

def stepCollector (r : Run) : Option Run :=
  match r.collector with
  | .eager =>
    match r.look with
    | (.empty, _) => none
    | (.closed, hub) => some (r.take hub .ended .done)
    | (taken, hub) => some (r.take hub taken .eager)
  | .timed (t :: rest) =>
    if t ≤ r.hub.now then
      let (taken, hub) := r.look
      some (r.take hub taken (.timed rest))
    else none
  | .timed [] | .done => none

/-- The actions of tasks: all but outside cancellation and the clock. -/
def taskActions (r : Run) : List Action :=
  [.discovery] ++ (List.range r.workers.length).map .worker ++ [.lone, .consumption, .collector] ++
    [.launch, .discoveryEnded, .cancellation, .workerEnded, .workersGone, .consumptionEnded, .arm,
      .deadline].map .supervisor

def stepTask (w : World) (r : Run) : Action → Option Run
  | .supervisor signal => r.supervise signal
  | .discovery => r.stepDiscovery w
  | .worker i => r.stepWorker w i
  | .lone => r.stepLone w
  | .consumption => r.stepConsumption w
  | .collector => r.stepCollector
  | .cancel | .tick _ => none

/-- No task can go on. -/
def isQuiet (w : World) (r : Run) : Bool :=
  r.taskActions.all fun a => (r.stepTask w a).isNone

/-- The points in time that tasks wait for. -/
def dues (r : Run) : List Nat :=
  [r.supervisorDue, r.discovery.bind Discovery.nextDue, r.lone.bind Attempts.nextDue,
    r.consumption.bind Consumption.nextDue].filterMap id ++
    r.workers.filterMap Worker.nextDue ++
    (match r.collector with
      | .timed (t :: _) => [t]
      | _ => [])

def step (w : World) (r : Run) : Action → Option Run
  | .cancel => some r.cancel
  | .tick time =>
    if r.isQuiet w ∧ r.hub.now < time ∧ ∀ t ∈ r.dues, r.hub.now < t → time ≤ t then
      some { r with hub := { r.hub with now := time } }
    else none
  | a => r.stepTask w a

/-- The states that a run can get to from `r₀`. -/
inductive Reachable (w : World) (r₀ : Run) : Run → Prop where
  | refl : Reachable w r₀ r₀
  | step {r r' : Run} (a : Action) : Reachable w r₀ r → r.step w a = some r' → Reachable w r₀ r'

end Run

end DecodePipeline
