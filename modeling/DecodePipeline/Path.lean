/-!
Slash-separated paths as text. A path is the string that was written; its components leave out empty
pieces and, except at the very front, pieces that are a single dot.
-/

namespace DecodePipeline.Path

inductive Component where
  | root
  | current
  | parent
  | normal (name : String)
  deriving DecidableEq, Repr

def splitSlash : List Char → List (List Char)
  | [] => [[]]
  | c :: cs =>
    if c = '/' then [] :: splitSlash cs
    else
      match splitSlash cs with
      | [] => [[c]]
      | piece :: rest => (c :: piece) :: rest

def isAbsolute (p : String) : Bool :=
  p.toList.head? = some '/'

/-- The component that a piece between slashes stands for; empty pieces and dots stand for none. -/
def pieceComponent (piece : List Char) : Option Component :=
  if piece = [] ∨ piece = ['.'] then none
  else if piece = ['.', '.'] then some .parent
  else some (.normal (String.ofList piece))

def components (p : String) : List Component :=
  match splitSlash p.toList with
  | [] => []
  | first :: rest =>
    if isAbsolute p then .root :: rest.filterMap pieceComponent
    else if first = ['.'] then .current :: rest.filterMap pieceComponent
    else (first :: rest).filterMap pieceComponent

/-- The last component, when it is a name. -/
def fileName? (p : String) : Option String :=
  match (components p).getLast? with
  | some (.normal name) => some name
  | _ => none

/-- An absolute right side replaces the left one; otherwise one slash stands between the two, unless the
left one is empty or ends in one. -/
def join (a b : String) : String :=
  if isAbsolute b then b
  else if a.isEmpty || a.toList.getLast? = some '/' then a ++ b
  else a ++ "/" ++ b

/-- Drops, at the back, slashes and pieces that are a single dot. `body` is what may be dropped from,
reversed. -/
def trimBackPieces : List Char → List Char
  | '/' :: rest => trimBackPieces rest
  | '.' :: '/' :: rest => trimBackPieces rest
  | rest => rest

/-- Drops the last piece, reversed input: all up to the next slash. -/
def dropBackPiece (rev : List Char) : List Char :=
  rev.dropWhile (· ≠ '/')

/-- The path without its last component; the root and the empty path have none. -/
def parent? (p : String) : Option String :=
  match (components p).getLast? with
  | none | some .root => none
  | some _ =>
    let cs := p.toList
    let (front, body) := if isAbsolute p then (['/'], cs.drop 1) else ([], cs)
    let rest := trimBackPieces (dropBackPiece (trimBackPieces body.reverse))
    let rest := if rest = ['.'] ∧ front = ['/'] then [] else rest
    some (String.ofList (front ++ rest.reverse))

/-- At most `n` paths: a path, then the ones above it one component at a time. -/
def ancestors : Nat → String → List String
  | 0, _ => []
  | n + 1, p =>
    match parent? p with
    | none => [p]
    | some above => p :: ancestors n above

/-- The name split at its last dot; a name whose only dot is in front is all stem. -/
def splitExtension (name : String) : String × Option String :=
  let rev := name.toList.reverse
  let after := rev.takeWhile (· ≠ '.')
  match rev.dropWhile (· ≠ '.') with
  | '.' :: before =>
    if before = [] then (name, none)
    else (String.ofList before.reverse, some (String.ofList after.reverse))
  | _ => (name, none)

def extension? (p : String) : Option String :=
  (fileName? p).bind fun name => (splitExtension name).2

def stem? (p : String) : Option String :=
  (fileName? p).map fun name => (splitExtension name).1

end DecodePipeline.Path
