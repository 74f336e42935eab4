import DecodePipeline.Settings
import DecodePipeline.Stage.Consumption
import DecodePipeline.Stage.Discovery
import DecodePipeline.Stage.Worker

/-!
The supervisor of a run. It starts the tasks, waits for discovery, then for the workers, then for
consumption, and closes each queue before it waits for those that read from it. After cancellation a
deadline bounds the first two waits, and a further allowance the last.
-/

namespace DecodePipeline

inductive Lifecycle where
  | idle
  | running
  | draining
  | stopped
  deriving Repr, DecidableEq

namespace Lifecycle

def name : Lifecycle → String
  | idle => "Idle"
  | running => "Running"
  | draining => "Draining"
  | stopped => "Stopped"

end Lifecycle

namespace Supervisor

inductive Phase where
  | idle
  | launching
  | watching
  | awaitingDiscovery
  | awaitingWorkers
  | awaitingConsumption (limit : Option Nat)
  | stopped
  deriving Repr, DecidableEq

def Phase.lifecycle : Phase → Lifecycle
  | idle => .idle
  | launching | watching => .running
  | awaitingDiscovery | awaitingWorkers | awaitingConsumption _ => .draining
  | stopped => .stopped

end Supervisor

/-- The supervisor's own state: the deadline once it is set, whether it has passed, the workers whose end
was noticed, and the first fault that ends the run. -/
structure Supervisor where
  phase : Supervisor.Phase := .idle
  deadline : Option Nat := none
  expired : Bool := false
  joined : List Nat := []
  firstFault : Option Fault := none
  summary : Option Summary := none
  history : List (Nat × Lifecycle) := []
  deriving Repr, DecidableEq

/-- Consumers outside the run: one that takes whatever comes, or one that looks at given times. -/
inductive Collector where
  | eager
  | timed (times : List Nat)
  | done
  deriving Repr, DecidableEq

inductive Taken where
  | item (item : WorkItem)
  | set (set : ArtifactSet)
  | ended
  | empty
  | closed
  deriving Repr, DecidableEq

inductive Outlet where
  | work
  | artifacts
  deriving Repr, DecidableEq

/-- All tasks of a run with what they share. A task that does not exist (yet) is absent. -/
structure Run where
  settings : Settings
  hub : Hub
  supervisor : Supervisor := {}
  discovery : Option Discovery := none
  workers : List Worker := []
  lone : Option Attempts := none
  consumption : Option Consumption := none
  collector : Collector := .done
  outlet : Outlet := .work
  taken : List (Nat × Taken) := []
  deriving Repr

namespace Run

def lifecycle (r : Run) : Lifecycle := r.supervisor.phase.lifecycle

/-- Moves the supervisor to a phase and notes when others see a change. -/
def enter (r : Run) (phase : Supervisor.Phase) : Run :=
  let history :=
    if phase.lifecycle = r.lifecycle then r.supervisor.history
    else r.supervisor.history ++ [(r.hub.now, phase.lifecycle)]
  { r with supervisor := { r.supervisor with phase, history } }

/-- Keeps the first fault. -/
def record (r : Run) (fault : Fault) : Run :=
  { r with supervisor := { r.supervisor with firstFault := r.supervisor.firstFault <|> some fault } }

def cancel (r : Run) : Run := { r with hub := { r.hub with cancelled := true } }

def panicFault (task : String) : Fault := .supervisor (task ++ " task panicked")

/-- Sets the deadline when the run is cancelled and none is set. -/
def arm (r : Run) : Run :=
  let deadline := r.hub.now + r.settings.shutdownTimeout.millis
  { r with supervisor := { r.supervisor with deadline := some deadline } }

/-- A run that has not been started. -/
def make (s : Settings) : Except Fault Run := do
  let work ← Queue.make? s.queueCapacity
  let artifacts ← Queue.make? s.queueCapacity
  return { settings := s, hub := { work, artifacts, slots := max 1 s.workers } }

/-- Starts a run that is idle and whose settings are accepted. -/
def start (r : Run) : Except Fault Run := do
  r.settings.validate
  if r.lifecycle = .idle then return r.enter .launching
  else
    .error (.supervisor
      ("pipeline already started (state: " ++ r.lifecycle.name ++ ")"))

/-- The tasks come into being. -/
def launch (r : Run) : Run :=
  { r.enter .watching with
    discovery := some { mode := r.settings.mode, maxItems := r.settings.maxItems }
    workers := List.replicate r.settings.workers {}
    consumption := some { expectedFrames := r.settings.expectedFrames } }

/-- The work queue is closed: from now on the run drains. -/
def drain (r : Run) (phase : Supervisor.Phase) : Run :=
  { r.enter phase with hub := { r.hub with work := r.hub.work.close } }

/-- How the end of discovery counts: being cancelled is expected once the run is. -/
def afterDiscovery (r : Run) : Ending Nat → Run
  | .returned _ | .aborted => r
  | .faulted fault =>
    if r.hub.cancelled ∧ (fault = .cancelled ∨ fault = .queueClosed) then r else r.record fault
  | .panicked => (r.record (panicFault "discovery")).cancel

def afterWorker (r : Run) : Ending Nat → Run
  | .returned _ | .aborted => r
  | .faulted fault => (r.record fault).cancel
  | .panicked => (r.record (panicFault "transform worker")).cancel

def afterConsumption (r : Run) : Ending Nat → Run
  | .returned _ | .aborted => r
  | .faulted fault => r.record fault
  | .panicked => r.record (panicFault "consumption")

def abortDiscovery (r : Run) : Run := { r with discovery := r.discovery.map Discovery.abort }

def abortWorkers (r : Run) : Run :=
  let step (acc : Hub × List Worker) (x : Worker) : Hub × List Worker :=
    let (hub, x) := x.abort acc.1
    (hub, acc.2 ++ [x])
  let (hub, workers) := r.workers.foldl step (r.hub, [])
  { r with hub, workers }

def abortConsumption (r : Run) : Run := { r with consumption := r.consumption.map Consumption.abort }

/-- The deadline passes while workers are alive. -/
def expire (r : Run) : Run :=
  { r with supervisor := { r.supervisor with expired := true } }.abortWorkers

def nextEnded (joined : List Nat) : Nat → List Worker → Option (Nat × Ending Nat)
  | _, [] => none
  | i, x :: rest =>
    match x.ending? with
    | some e => if joined.contains i then nextEnded joined (i + 1) rest else some (i, e)
    | none => nextEnded joined (i + 1) rest

/-- The run is over: its counters are summed up. -/
def stop (r : Run) : Run :=
  let r := r.enter .stopped
  let summary := r.hub.stats.summary (.ofMillis r.hub.now) r.hub.cancelled
  { r with supervisor := { r.supervisor with summary := some summary } }

inductive Signal where
  | launch
  | arm
  | discoveryEnded
  | cancellation
  | workerEnded
  | workersGone
  | consumptionEnded
  | deadline
  deriving Repr, DecidableEq

/-- The supervisor's reaction to a signal, where the signal is there. -/
def supervise (r : Run) (signal : Signal) : Option Run :=
  match r.supervisor.phase, signal with
  | .launching, .launch => some r.launch
  | .watching, .discoveryEnded =>
    (r.discovery.bind Discovery.ending?).map fun e => (r.drain .awaitingWorkers).afterDiscovery e
  | .watching, .cancellation =>
    if r.hub.cancelled then some (r.drain .awaitingDiscovery).arm else none
  | .awaitingDiscovery, .discoveryEnded =>
    (r.discovery.bind Discovery.ending?).map fun e => (r.enter .awaitingWorkers).afterDiscovery e
  | .awaitingDiscovery, .deadline =>
    if isDue r.hub.now r.supervisor.deadline then
      some ((r.enter .awaitingWorkers).abortDiscovery.expire)
    else none
  | .awaitingWorkers, .arm =>
    if r.hub.cancelled ∧ r.supervisor.deadline = none then some r.arm else none
  | .awaitingWorkers, .workerEnded =>
    (nextEnded r.supervisor.joined 0 r.workers).map fun (i, e) =>
      { r with supervisor := { r.supervisor with joined := i :: r.supervisor.joined } }.afterWorker e
  | .awaitingWorkers, .workersGone =>
    if r.supervisor.joined.length = r.workers.length then
      let limit := if r.supervisor.expired then some (r.hub.now + r.settings.shutdownTimeout.millis) else none
      some { r.enter (.awaitingConsumption limit) with
        hub := { r.hub with artifacts := r.hub.artifacts.close } }
    else none
  | .awaitingWorkers, .deadline =>
    if !r.supervisor.expired && isDue r.hub.now r.supervisor.deadline then some r.expire else none
  | .awaitingConsumption _, .arm =>
    if r.hub.cancelled ∧ r.supervisor.deadline = none then some r.arm else none
  | .awaitingConsumption _, .consumptionEnded =>
    (r.consumption.bind Consumption.ending?).map fun e => (r.afterConsumption e).stop
  | .awaitingConsumption limit, .deadline =>
    -- within the last allowance an end that is there is noticed first
    let noticed := r.supervisor.expired && (r.consumption.bind Consumption.ending?).isSome
    if !noticed && isDue r.hub.now (if r.supervisor.expired then limit else r.supervisor.deadline) then
      some r.abortConsumption.stop
    else none
  | _, _ => none

/-- When the clock alone lets the supervisor go on. -/
def supervisorDue (r : Run) : Option Nat :=
  match r.supervisor.phase with
  | .awaitingDiscovery => r.supervisor.deadline
  | .awaitingWorkers => if r.supervisor.expired then none else r.supervisor.deadline
  | .awaitingConsumption limit => if r.supervisor.expired then limit else r.supervisor.deadline
  | _ => none

end Run

end DecodePipeline
