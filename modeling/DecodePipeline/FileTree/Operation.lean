import DecodePipeline.FileTree.Resolve
import DecodePipeline.Text.Utf8

/-!
Reading and changing a file tree by path. Every operation either gives the changed tree or the error that
the system would report, and then changes nothing.
-/

namespace DecodePipeline.FileTree

/-! ## Reading -/

/-- The bytes of a file; what reads without end is cut at `most`. -/
def contentOf (most : Nat) : Node → Except SystemError (List UInt8)
  | .file content _ => .ok content
  | .directory => .error .isDirectory
  | .zeros => .ok (List.replicate most 0)
  | _ => .ok []

def read (t : FileTree) (cwd : Location) (path : String) : Except SystemError (List UInt8) := do
  contentOf 0 (← t.stat cwd path)

/-- The text of a file that must be UTF-8. -/
def readText (t : FileTree) (cwd : Location) (path : String) : Except SystemError String := do
  let bytes ← t.read cwd path
  if Text.isUtf8 bytes then return Text.decodeLossy bytes else .error .notText

def directory (t : FileTree) (cwd : Location) (path : String) : Except SystemError Location := do
  match ← t.find cwd true path with
  | (l, .directory) => return l
  | _ => .error .notDirectory

/-- The names in a directory with their nodes, links not followed. -/
def list (t : FileTree) (cwd : Location) (path : String) : Except SystemError (List (String × Node)) := do
  return t.children (← t.directory cwd path)

/-! ## Changing -/

def withoutFinalSlashes (path : String) : String :=
  let kept := (path.toList.reverse.dropWhile (· = '/')).reverse
  if kept = [] then path else String.ofList kept

/-- Makes one directory below one that is there. -/
def makeDirectory (t : FileTree) (cwd : Location) (path : String) : Except SystemError FileTree := do
  let spot ← t.resolve cwd false (withoutFinalSlashes path)
  match spot.node with
  | none => return t.put spot.location .directory
  | some _ => .error .alreadyExists

/-- A change that may stop half way: what has become of the tree, and whether all went well. -/
abbrev Attempt := FileTree × Except SystemError Unit

/-- Makes a directory where the directory above it is there. What is there already counts as made if it
is a directory. -/
def ensureDirectory (t : FileTree) (cwd : Location) (path : String) : Attempt :=
  match t.makeDirectory cwd path with
  | .ok t => (t, .ok ())
  | .error e => (t, if t.isDirectory cwd path then .ok () else .error e)

/-- Makes a directory, with those above it where they are missing. -/
def makeDirectories (t : FileTree) (cwd : Location) : Nat → String → Attempt
  | 0, _ => (t, .error .notFound)
  | fuel + 1, path =>
    if path.isEmpty then (t, .ok ())
    else
      match t.ensureDirectory cwd path with
      | (t', .error e) =>
        match Path.parent? path with
        | some above =>
          if e = .notFound then
            match t.makeDirectories cwd fuel above with
            | (t', .ok _) => t'.ensureDirectory cwd path
            | stopped => stopped
          else (t', .error e)
        | none => (t', .error e)
      | made => made

def createDirectories (t : FileTree) (cwd : Location) (path : String) : Attempt :=
  t.makeDirectories cwd (path.length + 1) path

/-- Where a path that is opened for writing leads; a file that is not there is made. -/
def openForWriting (t : FileTree) (cwd : Location) (path : String) :
    Except SystemError (FileTree × Location × Node) := do
  let spot ← t.resolve cwd true (withoutFinalSlashes path)
  if path.toList.getLast? = some '/' then .error .isDirectory
  else
    match spot.node with
    | none =>
      let empty := Node.file [] false
      return (t.put spot.location empty, spot.location, empty)
    | some .directory => .error .isDirectory
    | some n => return (t, spot.location, n)

/-- Adds bytes at the end of the file at a location; nothing else keeps what is written to it. -/
def extend (t : FileTree) (l : Location) (bytes : List UInt8) : FileTree :=
  match t.node? l with
  | some (.file content executable) => t.put l (.file (content ++ bytes) executable)
  | _ => t

def truncate (t : FileTree) (l : Location) : FileTree :=
  match t.node? l with
  | some (.file _ executable) => t.put l (.file [] executable)
  | _ => t

/-- Opens a file, makes it if need be, and adds bytes at its end. -/
def append (t : FileTree) (cwd : Location) (path : String) (bytes : List UInt8) :
    Except SystemError FileTree := do
  let (t, l, _) ← t.openForWriting cwd path
  return t.extend l bytes

/-- Removes what a path names, a link itself and not its target; directories stay. -/
def remove (t : FileTree) (cwd : Location) (path : String) : Except SystemError FileTree := do
  match ← t.find cwd false path with
  | (_, .directory) => .error .isDirectory
  | (l, _) => return t.erase l

end DecodePipeline.FileTree
