import DecodePipeline.Stage.Hub
import DecodePipeline.Validation

/-!
Consumption: takes artifact sets in queue order, checks each, and shows the well-formed ones to the
renderer, which is reset once before the first of them. A set that is not well formed or that the
renderer refuses is dropped; neither ends the task.
-/

namespace DecodePipeline

namespace Consumption

inductive Point where
  | idle
  | checking (set : ArtifactSet)
  | resetting (set : ArtifactSet) (due : Option Nat) (reply : Reply (List String) Unit)
  | accepting (set : ArtifactSet) (due : Option Nat) (reply : Reply (List String) Unit)
  | ended (ending : Ending Nat)
  deriving Repr, DecidableEq

end Consumption

/-- The task, the sets it has taken in their order, the number of those accepted so far, whether the
renderer has been reset, and the set that was lost with the task when it broke down or was ended from
outside. -/
structure Consumption where
  expectedFrames : Option Nat
  taken : List ArtifactSet := []
  accepted : Nat := 0
  wasReset : Bool := false
  point : Consumption.Point := .idle
  lost : Option ArtifactSet := none
  deriving Repr, DecidableEq

namespace Consumption

/-- The set that the task has taken and whose fate is open. -/
def held? (c : Consumption) : Option ArtifactSet :=
  match c.point with
  | .checking set | .resetting set _ _ | .accepting set _ _ => some set
  | .idle | .ended _ => none

/-- Ends the task with what it holds. -/
def cutOff (c : Consumption) (ending : Ending Nat) : Consumption :=
  { c with point := .ended ending, lost := c.held? }

/-- Shows a set to the renderer with the next sequence number. -/
def offer (w : World) (c : Consumption) (hub : Hub) (set : ArtifactSet) : Hub × Consumption :=
  let b := w.accept hub.shown set
  ({ hub with rendererCalls := hub.rendererCalls ++ [.accept hub.now (c.accepted + 1) set] },
    { c with wasReset := true, point := .accepting set (dueAt hub.now b.delay) b.reply })

def step (w : World) (c : Consumption) (hub : Hub) : Option (Hub × Consumption) :=
  match c.point with
  | .idle =>
    match hub.artifacts.tryPop with
    | (.item set, artifacts) =>
      some ({ hub with artifacts }, { c with taken := c.taken ++ [set], point := .checking set })
    | (.closed, _) => some (hub, { c with point := .ended (.returned c.accepted) })
    | (.empty, _) => none
  | .checking set =>
    match Validation.check c.expectedFrames hub.isPresent set with
    | .error _ => some (hub.count Stats.addRejected, { c with point := .idle })
    | .ok _ =>
      if c.wasReset then some (c.offer w hub set)
      else
        some ({ hub with rendererCalls := hub.rendererCalls ++ [.reset hub.now] },
          { c with point := .resetting set (dueAt hub.now w.reset.delay) w.reset.reply })
  | .resetting set due reply =>
    if isDue hub.now due then
      match reply with
      | .panics => some (hub, c.cutOff .panicked)
      | .fails _ | .gives _ => some (c.offer w hub set)
    else none
  | .accepting _ due reply =>
    if isDue hub.now due then
      match reply with
      | .panics => some (hub, c.cutOff .panicked)
      | .fails _ => some (hub.count Stats.addRejected, { c with point := .idle })
      | .gives _ =>
        some (hub.count Stats.addConsumed, { c with accepted := c.accepted + 1, point := .idle })
    else none
  | .ended _ => none

def nextDue (c : Consumption) : Option Nat :=
  match c.point with
  | .resetting _ due _ | .accepting _ due _ => due
  | _ => none

def ending? (c : Consumption) : Option (Ending Nat) :=
  match c.point with
  | .ended e => some e
  | _ => none

def abort (c : Consumption) : Consumption :=
  match c.point with
  | .ended _ => c
  | _ => c.cutOff .aborted

end Consumption

end DecodePipeline
