import DecodePipeline.Shell.Arithmetic
import DecodePipeline.Shell.Syntax

/-!
What a shell remembers between two commands.
-/

namespace DecodePipeline.Shell

structure State where
  /-- What the shell was called as. -/
  name : String
  arguments : List String := []
  bindings : Variables := []
  functions : List (String × Command) := []
  /-- What to do instead of ending on a signal, by the signal's name; nothing means to ignore it. -/
  traps : List (String × String) := []
  status : Nat := 0
  /-- The number of the first shell of this script. -/
  id : Nat := 0
  job : Option Nat := none
  /-- A command that fails ends the shell. -/
  failFast : Bool := false
  /-- A variable without a value is an error. -/
  strict : Bool := false
  /-- How many commands are being run whose failure decides something. -/
  lenient : Nat := 0
  line : Nat := 1

namespace State

def withStatus (s : State) (status : Nat) : State := { s with status }

def set (s : State) (name value : String) : State :=
  { s with bindings := s.bindings.set name value }

def complaint (s : State) (text : String) : String :=
  s.name ++ ": " ++ toString s.line ++ ": " ++ text ++ "\n"

def flags (s : State) : String :=
  (if s.failFast then "e" else "") ++ (if s.strict then "u" else "")

def value? (s : State) (name : String) : Option String :=
  match name with
  | "0" => some s.name
  | "#" => some (toString s.arguments.length)
  | "?" => some (toString s.status)
  | "$" => some (toString s.id)
  | "!" => s.job.map toString
  | "-" => some s.flags
  | _ =>
    match Decimal.read? name.toList with
    | some n => s.arguments[n - 1]?
    | none => s.bindings.get? name

def separators (s : State) : List Char :=
  match s.bindings.get? "IFS" with
  | some chars => chars.toList
  | none => [' ', '\t', '\n']

/-- The state of a shell that is started by this one: what was to be caught is not caught there. -/
def child (s : State) : State :=
  { s with traps := s.traps.filter (·.2.isEmpty), job := s.job }

end State

end DecodePipeline.Shell
