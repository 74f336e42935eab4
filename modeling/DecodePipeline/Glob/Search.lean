import DecodePipeline.FileTree.Operation
import DecodePipeline.Glob.Pattern

/-!
The paths in a file tree that a pattern for whole paths stands for. The pattern is walked piece by piece;
a piece without special characters is looked up, any other is compared with the names in the directory,
and a piece of two asterisks stands for any number of directories.
-/

namespace DecodePipeline.Glob

inductive Piece where
  | literal (name : String)
  | pattern (p : Pattern)
  | directories
  deriving DecidableEq, Repr

namespace Piece

def read? (cs : List Char) : Option Piece :=
  if cs = ['*', '*'] then some .directories
  else (Pattern.read? cs).map fun p =>
    match p.literal? with
    | some name => .literal name
    | none => .pattern p

def acceptsName (name : String) : Piece → Bool
  | literal own => name = own
  | pattern p => p.accepts name.toList
  | directories => true

/-- Only a piece that begins with a dot can stand for the directory itself or the one above. -/
def dots : Piece → List String
  | pattern (.char '.' :: p) => [".", ".."].filter fun name => Pattern.accepts (.char '.' :: p) name.toList
  | _ => []

end Piece

/-- The pieces of a pattern, where it starts, and whether only directories count. -/
structure Query where
  start : String
  pieces : List Piece
  onlyDirectories : Bool
  deriving DecidableEq, Repr

namespace Query

def read? (text : String) : Option Query := do
  let rooted := Path.isAbsolute text
  let cs := if rooted then text.toList.drop 1 else text.toList
  let parts := Path.splitSlash cs
  let ended := parts.getLast? = some []
  let pieces ← (if ended then parts.dropLast else parts).mapM Piece.read?
  let pieces := if cs.isEmpty ∧ rooted then [.literal ""] else pieces
  return ⟨if rooted then "/" else ".", pieces, text.toList.getLast? = some '/'⟩

end Query

/-- The path of a name below a path; nothing is written for the directory that one is in. -/
def below (path name : String) : String :=
  if path = "." then name else Path.join path name

def childNames (t : FileTree) (cwd : Location) (path : String) : List String :=
  match t.list cwd path with
  | .ok entries => (entries.map (·.1)).mergeSort (· ≤ ·)
  | .error _ => []

def isThere (t : FileTree) (cwd : Location) (path : String) : Bool :=
  (t.find cwd false path).isOk

/-- The paths that the pieces stand for below a path; `fuel` bounds how deep directories are entered. -/
def search (t : FileTree) (cwd : Location) : Nat → String → List Piece → List String
  | 0, _, _ => []
  | _, path, [] => [path]
  | fuel + 1, path, .literal name :: rest =>
    let next := below path name
    let found :=
      if name = "." ∨ name = ".." then t.isDirectory cwd path
      else t.exists? cwd next || isThere t cwd next
    if found then search t cwd fuel next rest else []
  | fuel + 1, path, .pattern p :: rest =>
    let named := (childNames t cwd path).filter fun name => p.accepts name.toList
    let dots := if t.isDirectory cwd path then (Piece.pattern p).dots else []
    named.flatMap (fun name => search t cwd fuel (below path name) rest) ++
      dots.flatMap fun name => search t cwd fuel (Path.join path name) rest
  | fuel + 1, path, .directories :: rest =>
    match rest with
    | .directories :: _ => search t cwd fuel path rest
    | _ =>
      (childNames t cwd path).flatMap fun name =>
        let child := below path name
        let inner := t.isDirectory cwd child
        let here :=
          match rest with
          | [] => if inner then [child] else []
          | piece :: rest => if piece.acceptsName name then search t cwd fuel child rest else []
        here ++ if inner then search t cwd fuel child (.directories :: rest) else []

/-- All paths that a pattern stands for, or nothing if it is not one. -/
def paths? (t : FileTree) (cwd : Location) (text : String) : Option (List String) :=
  (Query.read? text).map fun q =>
    (search t cwd (FileTree.pathLimit + q.pieces.length) q.start q.pieces).filter fun path =>
      !q.onlyDirectories || t.isDirectory cwd path

end DecodePipeline.Glob
