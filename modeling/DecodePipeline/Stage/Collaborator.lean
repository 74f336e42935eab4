import DecodePipeline.Fault
import DecodePipeline.Source
import DecodePipeline.WorkItem

/-!
What a run sees of its collaborators: the catalog of sources, the decoder and the renderer. Each call
takes some time, or never ends, and then breaks down, fails or succeeds.
-/

namespace DecodePipeline

inductive Reply (ε α : Type) where
  | panics
  | fails (error : ε)
  | gives (value : α)
  deriving Repr, DecidableEq

/-- A call that ends after `delay` milliseconds; without a delay it never ends. -/
structure Behaviour (ε α : Type) where
  delay : Option Nat
  reply : Reply ε α
  deriving Repr, DecidableEq

/-- The files that a decoder call returns, and those of them that are there afterwards. -/
structure Decoded where
  files : List String
  created : List String
  deriving Repr, DecidableEq

/-- A decoder call. One that heeds the run gives up when the run is cancelled or its time is over. -/
structure DecoderBehaviour extends Behaviour Fault Decoded where
  heeds : Bool
  deriving Repr, DecidableEq

/-- All that the collaborators will do: the catalog by call, the decoder by id and call for that id, the
renderer by call. -/
structure World where
  catalog : Nat → Behaviour (List String) (List SourceEntry)
  decoder : String → Nat → DecoderBehaviour
  reset : Behaviour (List String) Unit
  accept : Nat → ArtifactSet → Behaviour (List String) Unit

/-- When a call that begins at `now` ends. -/
def dueAt (now : Nat) (delay : Option Nat) : Option Nat :=
  delay.map (now + ·)

/-- Whether a point in time has come. -/
def isDue (now : Nat) : Option Nat → Bool
  | some t => t ≤ now
  | none => false

inductive Ending (α : Type) where
  | returned (value : α)
  | faulted (fault : Fault)
  | panicked
  | aborted
  deriving Repr, DecidableEq

end DecodePipeline
