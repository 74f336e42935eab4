import DecodePipeline.FileTree.Operation

/-!
What a program's name leads to: a tool of the system or a script that names its interpreter. A name
without a slash is looked for in the directories of tools.
-/

namespace DecodePipeline

inductive Program where
  | tool (name : String)
  | script (text : String)
  deriving DecidableEq, Repr

namespace Program

def searchPath : List String :=
  ["/usr/local/sbin", "/usr/local/bin", "/usr/sbin", "/usr/bin", "/sbin", "/bin"]

/-- The path of the interpreter in the first line of a script. -/
def interpreter? (text : List Char) : Option String :=
  match text with
  | '#' :: '!' :: rest =>
    let line := (rest.takeWhile (· ≠ '\n')).dropWhile (· = ' ')
    some (String.ofList (line.takeWhile (· ≠ ' ')))
  | _ => none

def load (t : FileTree) (cwd : Location) (path : String) : Except SystemError Program := do
  match ← t.stat cwd path with
  | .tool name => return .tool name
  | .file content true =>
    let text := Text.decodeLossy content
    match interpreter? text.toList with
    | none => throw .execFormat
    | some interpreter =>
      match ← t.stat cwd interpreter with
      | .tool _ => return .script text
      | _ => throw .permissionDenied
  | _ => throw .permissionDenied

/-- Looks through directories; a file that may not be run counts only if no other is found. -/
def search (t : FileTree) (name : String) : List String → SystemError → Except SystemError Program
  | [], worst => .error worst
  | directory :: rest, worst =>
    match load t [] (Path.join directory name) with
    | .ok program => .ok program
    | .error e =>
      if e = .notFound ∨ e = .notDirectory then search t name rest worst
      else if e = .permissionDenied then search t name rest e
      else .error e

def find (t : FileTree) (cwd : Location) (name : String) : Except SystemError Program :=
  if name.isEmpty then .error .notFound
  else if name.toList.contains '/' then load t cwd name
  else search t name searchPath .notFound

end Program

end DecodePipeline
