import DecodePipeline.Queue.Basic
import DecodePipeline.Stage.Collaborator
import DecodePipeline.Stats

/-!
What the tasks of a run share: the clock, the cancellation token, the two queues, the decoder slots, the
counters and the files, and a record of the calls made to the collaborators.
-/

namespace DecodePipeline

/-- A decoder call: when it began, for which item, with which attempt number. -/
structure DecoderCall where
  time : Nat
  id : String
  attempt : Nat
  deriving Repr, DecidableEq

inductive RendererCall where
  | reset (time : Nat)
  | accept (time seq : Nat) (set : ArtifactSet)
  deriving Repr, DecidableEq

structure Hub where
  now : Nat := 0
  cancelled : Bool := false
  work : Queue WorkItem
  artifacts : Queue ArtifactSet
  slots : Nat
  stats : Stats := {}
  present : List String := []
  scans : List Nat := []
  decoderCalls : List DecoderCall := []
  running : Nat := 0
  peak : Nat := 0
  rendererCalls : List RendererCall := []
  deriving Repr, DecidableEq

namespace Hub

def count (h : Hub) (f : Stats → Stats) : Hub := { h with stats := f h.stats }

def callsFor (h : Hub) (id : String) : Nat :=
  (h.decoderCalls.filter (·.id = id)).length

def shown (h : Hub) : Nat :=
  (h.rendererCalls.filter fun
    | .accept _ _ _ => true
    | .reset _ => false).length

def isPresent (h : Hub) (file : String) : Bool := h.present.contains file

def beginCall (h : Hub) (item : WorkItem) : Hub :=
  { h with
    slots := h.slots - 1
    decoderCalls := h.decoderCalls ++ [⟨h.now, item.id, item.attempt⟩]
    running := h.running + 1
    peak := max h.peak (h.running + 1) }

/-- Ends a decoder call, however it ended, and frees its slot. -/
def endCall (h : Hub) : Hub :=
  { h with slots := h.slots + 1, running := h.running - 1 }

end Hub

end DecodePipeline
