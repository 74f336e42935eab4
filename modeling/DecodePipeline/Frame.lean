import DecodePipeline.Decimal.Natural
import DecodePipeline.Path

/-!
Names of decoded frames: `<id>_dec_<index>.ply`, the index in decimal with at least four digits. The
name builder and the reader are inverse to each other.
-/

namespace DecodePipeline.Frame

def separator : List Char := "_dec_".toList

def suffix : List Char := ".ply".toList

def fileExtension : String := "ply"

def name (id : String) (index : Nat) : String :=
  String.ofList (id.toList ++ separator ++ Decimal.padded 4 index ++ suffix)

/-- The name with a placeholder for the index, as the decoder expects it. -/
def template (id : String) : String :=
  id ++ "_dec_%04d." ++ fileExtension

/-- What is left of `cs` after `front`. -/
def after? (front cs : List Char) : Option (List Char) :=
  if front.isPrefixOf cs then some (cs.drop front.length) else none

/-- What is left of `cs` before `back`. -/
def before? (back cs : List Char) : Option (List Char) :=
  (after? back.reverse cs.reverse).map List.reverse

/-- The frame index that a file name carries for item `id`: at least four digits that fit 32 bits. -/
def indexOfName? (id : String) (file : List Char) : Option Nat := do
  let rest ← after? (id.toList ++ separator) file
  let digits ← before? suffix rest
  if digits.length < 4 then none
  else
    let index ← Decimal.read? digits
    if index < Decimal.limit32 then some index else none

def index? (id path : String) : Option Nat :=
  (Path.fileName? path).bind fun file => indexOfName? id file.toList

/-- Whether the number of frames found is the one expected; without an expectation there must be one. -/
def countMatches (expected : Option Nat) (found : Nat) : Bool :=
  match expected with
  | some n => found == n
  | none => 0 < found

end DecodePipeline.Frame
