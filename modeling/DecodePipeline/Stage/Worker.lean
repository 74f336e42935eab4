import DecodePipeline.Stage.Attempts

/-!
A worker takes an item from the work queue, makes the attempts on it, and hands its artifact set to the
next queue. It counts an item at the moment its fate is decided, and leaves when there is no more work or
the run is cancelled.
-/

namespace DecodePipeline

namespace Worker

inductive Point where
  | idle
  | busy (attempts : Attempts)
  | handing (set : ArtifactSet)
  | ended (ending : Ending Nat)
  deriving Repr, DecidableEq

end Worker

/-- The task, the number of sets it has handed on, and the id of the item that was lost with it when it
broke down or was ended from outside. -/
structure Worker where
  handed : Nat := 0
  point : Worker.Point := .idle
  lost : Option String := none
  deriving Repr, DecidableEq

namespace Worker

/-- The id of the item that the worker has taken and whose fate is open. -/
def held? (x : Worker) : Option String :=
  match x.point with
  | .busy attempts => attempts.item?.map (·.id)
  | .handing set => some set.itemId
  | .idle | .ended _ => none

/-- Ends the task with what it holds. -/
def cutOff (x : Worker) (ending : Ending Nat) : Worker :=
  { x with point := .ended ending, lost := x.held? }

/-- The run was cancelled while the worker held an item. -/
def giveUp (x : Worker) (hub : Hub) : Hub × Worker :=
  (hub.count Stats.addAbandoned, { x with point := .ended (.returned x.handed) })

/-- What a worker does with the outcome of an item. -/
def afterOutcome (x : Worker) (hub : Hub) : Attempts.Outcome → Hub × Worker
  | .transformed set => (hub, { x with point := .handing set })
  | .failed item fault => (hub.count (·.addFailed item fault), { x with point := .idle })
  | .cancelled => x.giveUp hub
  | .panicked => (hub, x.cutOff .panicked)
  | .aborted => (hub, x.cutOff .aborted)

def step (w : World) (s : Settings) (x : Worker) (hub : Hub) : Option (Hub × Worker) :=
  match x.point with
  | .idle =>
    if hub.cancelled then some (hub, { x with point := .ended (.returned x.handed) })
    else
      match hub.work.tryPop with
      | (.item item, work) => some ({ hub with work }, { x with point := .busy (.begin item) })
      | (.closed, _) => some (hub, { x with point := .ended (.returned x.handed) })
      | (.empty, _) => none
  | .busy attempts =>
    (attempts.step w s.retry s.transformTimeout hub).map fun (hub, attempts) =>
      match attempts with
      | .ended outcome => x.afterOutcome hub outcome
      | attempts => (hub, { x with point := .busy attempts })
  | .handing set =>
    if hub.cancelled then some (x.giveUp hub)
    else
      match hub.artifacts.tryPush set with
      | (.accepted, artifacts) =>
        some ({ hub with artifacts }.count Stats.addTransformed,
          { x with handed := x.handed + 1, point := .idle })
      | (.closed, _) => some (hub, { x with point := .ended (.faulted .queueClosed) })
      | (.full, _) => none
  | .ended _ => none

def nextDue (x : Worker) : Option Nat :=
  match x.point with
  | .busy attempts => attempts.nextDue
  | _ => none

def ending? (x : Worker) : Option (Ending Nat) :=
  match x.point with
  | .ended e => some e
  | _ => none

/-- Ends the task where it stands; a slot that is held is freed. -/
def abort (x : Worker) (hub : Hub) : Hub × Worker :=
  match x.point with
  | .ended _ => (hub, x)
  | .busy attempts => ((attempts.abort hub).1, x.cutOff .aborted)
  | _ => (hub, x.cutOff .aborted)

end Worker

end DecodePipeline
