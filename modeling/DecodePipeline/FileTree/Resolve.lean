import DecodePipeline.FileTree.Basic
import DecodePipeline.Path

/-!
From a path to a node. A path is walked name by name; links on the way are followed, at most forty of
them, and so is a link at the end if the caller asks for it.
-/

namespace DecodePipeline.FileTree

/-- Where a path leads: a location whose directory is there, and the node at it, if there is one. -/
structure Spot where
  location : Location
  node : Option Node
  deriving DecidableEq, Repr

/-- How many links may be followed on one path. -/
def linkLimit : Nat := 40

/-- A single name has at most so many bytes. -/
def nameLimit : Nat := 255

/-- A whole path has fewer than so many bytes. -/
def pathLimit : Nat := 4096

/-- The names on a path. A slash at the end asks for a directory, as a dot after it would. -/
def pieces (path : String) : List String :=
  let names := ((Path.splitSlash path.toList).filter (· ≠ [])).map String.ofList
  if path.toList.getLast? = some '/' then names ++ ["."] else names

/-- Walks names from a directory. What a link on the way stands for is taken up by `jump`, from where its
target starts, with the names that are left. -/
def walkBy (t : FileTree) (follow : Bool) (jump : Location → List String → Except SystemError Spot)
    (here : Location) : List String → Except SystemError Spot
  | [] => .ok ⟨here, t.node? here⟩
  | piece :: rest =>
    match t.node? here with
    | none => .error .notFound
    | some .directory =>
      if piece = "." then walkBy t follow jump here rest
      else if piece = ".." then walkBy t follow jump here.dropLast rest
      else if nameLimit < piece.utf8ByteSize then .error .nameTooLong
      else
        let there := here ++ [piece]
        match t.node? there with
        | none => if rest = [] then .ok ⟨there, none⟩ else .error .notFound
        | some (.link target) =>
          if rest = [] ∧ ¬follow then .ok ⟨there, some (.link target)⟩
          else if target.isEmpty then .error .notFound
          else jump (if Path.isAbsolute target then [] else here) (pieces target ++ rest)
        | some _ => walkBy t follow jump there rest
    | some _ => .error .notDirectory

/-- Walks names from a directory and follows at most `budget` links. -/
def walk (t : FileTree) (follow : Bool) : Nat → Location → List String → Except SystemError Spot
  | 0 => walkBy t follow fun _ _ => .error .tooManyLinks
  | budget + 1 => walkBy t follow (walk t follow budget)

/-- Where a path leads from the directory `cwd`. -/
def resolve (t : FileTree) (cwd : Location) (follow : Bool) (path : String) : Except SystemError Spot :=
  if path.toList.contains '\x00' then .error .zeroInName
  else if path.isEmpty then .error .notFound
  else if pathLimit ≤ path.utf8ByteSize then .error .nameTooLong
  else walk t follow linkLimit (if Path.isAbsolute path then [] else cwd) (pieces path)

/-- The node that a path leads to, with its location. -/
def find (t : FileTree) (cwd : Location) (follow : Bool) (path : String) :
    Except SystemError (Location × Node) := do
  let spot ← t.resolve cwd follow path
  match spot.node with
  | some n => return (spot.location, n)
  | none => .error .notFound

/-- What is there, links followed. -/
def stat (t : FileTree) (cwd : Location) (path : String) : Except SystemError Node :=
  (t.find cwd true path).map (·.2)

def exists? (t : FileTree) (cwd : Location) (path : String) : Bool :=
  (t.stat cwd path).isOk

/-- Like `exists?`, but only a path that leads nowhere counts as absent; any other error stays one. -/
def tryExists (t : FileTree) (cwd : Location) (path : String) : Except SystemError Bool :=
  match t.stat cwd path with
  | .ok _ => .ok true
  | .error e => if e = .notFound then .ok false else .error e

def isDirectory (t : FileTree) (cwd : Location) (path : String) : Bool :=
  match t.stat cwd path with
  | .ok n => n.isDirectory
  | .error _ => false

/-- The absolute path without links that a path leads to. -/
def canonical (t : FileTree) (cwd : Location) (path : String) : Except SystemError String :=
  (t.find cwd true path).map fun (l, _) => l.text

end DecodePipeline.FileTree
