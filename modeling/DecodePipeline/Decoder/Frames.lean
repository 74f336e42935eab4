import DecodePipeline.Fault
import DecodePipeline.FileTree.Operation
import DecodePipeline.Frame

/-!
The frames in a directory: the regular files that are named as frames of an item, by index and then by
name. Clearing removes exactly these.
-/

namespace DecodePipeline

/-- A frame in a directory: its index and its file name. -/
structure FrameFile where
  index : Nat
  name : String
  deriving DecidableEq, Repr

namespace FrameFile

def le (a b : FrameFile) : Bool :=
  if a.index = b.index then decide (a.name ≤ b.name) else a.index ≤ b.index

def read? (id : String) (entry : String × Node) : Option FrameFile :=
  if entry.2.isFile then (Frame.indexOfName? id entry.1.toList).map (⟨·, entry.1⟩) else none

/-- The frames of an item among the entries of a directory, in order. -/
def ofEntries (id : String) (entries : List (String × Node)) : List FrameFile :=
  (entries.filterMap (read? id)).mergeSort le

end FrameFile

namespace FileTree

/-- The frames of an item in a directory, which need not be there. -/
def frames (t : FileTree) (cwd : Location) (id dir : String) : Except SystemError (List FrameFile) := do
  if ← t.tryExists cwd dir then return FrameFile.ofEntries id (← t.list cwd dir) else return []

def framePaths (t : FileTree) (cwd : Location) (id dir : String) : Except SystemError (List String) := do
  return (← t.frames cwd id dir).map fun f => Path.join dir f.name

/-- Removes paths one after another, as far as it goes. -/
def removeAll (t : FileTree) (cwd : Location) : List String → Attempt
  | [] => (t, .ok ())
  | path :: rest =>
    match t.remove cwd path with
    | .ok t => t.removeAll cwd rest
    | .error e => (t, .error e)

def clearFrames (t : FileTree) (cwd : Location) (id dir : String) : Attempt :=
  match t.framePaths cwd id dir with
  | .ok paths => t.removeAll cwd paths
  | .error e => (t, .error e)

end FileTree

end DecodePipeline
