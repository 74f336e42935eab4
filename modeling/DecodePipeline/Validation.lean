import DecodePipeline.Fault
import DecodePipeline.Frame
import DecodePipeline.WorkItem

/-!
The check of an artifact set before it is shown: enough frames, each named for the item, in rising order,
and all of them there.
-/

namespace DecodePipeline.Validation

/-- The first fault in a list of frames after one with index `previous`. -/
def firstFault (id : String) (isThere : String → Bool) (previous : Option Nat) :
    List String → Option String
  | [] => none
  | file :: rest =>
    match Frame.index? id file with
    | none => some ("unexpected file name: " ++ file)
    | some index =>
      if previous.any (index ≤ ·) then some ("frames out of order at " ++ file)
      else if isThere file then firstFault id isThere (some index) rest
      else some ("missing file: " ++ file)

/-- Why a set is not well formed, if it is not. -/
def reason? (expected : Option Nat) (isThere : String → Bool) (set : ArtifactSet) : Option String :=
  if set.files = [] then some "no frame files"
  else if Frame.countMatches expected set.files.length then
    firstFault set.itemId isThere none set.files
  else
    some ("expected " ++ toString (expected.getD 1) ++ " frames, got " ++ toString set.files.length)

def check (expected : Option Nat) (isThere : String → Bool) (set : ArtifactSet) : Except Fault Unit :=
  match reason? expected isThere set with
  | some reason => .error (.invalid set.itemId reason)
  | none => .ok ()

end DecodePipeline.Validation
