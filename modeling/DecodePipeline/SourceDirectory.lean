import DecodePipeline.Fault
import DecodePipeline.FileTree.Operation
import DecodePipeline.Source

/-!
A directory as a catalog of sources: its regular files that have the extension of streams. The id of a
source is its file's name without the extension.
-/

namespace DecodePipeline

/-- Without an extension every file is a source, by its whole name. -/
structure SourceDirectory where
  root : String
  extension : String
  deriving DecidableEq, Repr

namespace SourceDirectory

def name : String := "directory"

/-- Dots in front of the extension do not count. -/
def make (root extension : String) : SourceDirectory :=
  ⟨root, String.ofList (extension.toList.dropWhile (· = '.'))⟩

/-- Equal up to the case of ASCII letters. -/
def sameExtension (a b : String) : Bool :=
  a.toList.map Char.toLower = b.toList.map Char.toLower

/-- The id of the source with this file name, if it is one. -/
def id? (d : SourceDirectory) (name : String) : Option String :=
  if d.extension.isEmpty then some name
  else
    match Path.splitExtension name with
    | (stem, some found) => if sameExtension found d.extension then some stem else none
    | (_, none) => none

/-- The source in one entry of the directory. -/
def source? (d : SourceDirectory) (entry : String × Node) : Option SourceEntry :=
  if entry.2.isFile then (d.id? entry.1).map fun id => ⟨id, Path.join d.root entry.1⟩ else none

/-- The sources in the order in which the directory is listed. -/
def list (t : FileTree) (cwd : Location) (d : SourceDirectory) : Except Failure (List SourceEntry) :=
  match t.list cwd d.root with
  | .ok entries => .ok (entries.filterMap d.source?)
  | .error e => .error (.context ("Failed to read source root: " ++ d.root) (some e))

end SourceDirectory

end DecodePipeline
