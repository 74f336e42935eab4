import DecodePipeline.Decimal.Natural

/-!
Reading the words of a command line: options with values, flags, positional words and the name of a
command. Words are read from left to right and the first fault found ends the reading. An option's value
is looked at only when the next option or positional word comes, or at the end.
-/

namespace DecodePipeline.CommandLine

/-- Why words cannot be read, or what they ask for instead of a command. -/
inductive Usage where
  | help
  | version
  | nothingGiven
  | missingCommand
  | unknownCommand
  | unknownArgument
  | missingValue
  | emptyValue
  | wrongChoice
  | notANumber
  | repeated
  | unneededValue
  deriving DecidableEq, Repr

/-- Asking for help or for the version is no failure. -/
def Usage.exitCode : Usage → Nat
  | help | version => 0
  | _ => 2

inductive ValueKind where
  | path
  | number
  | choice (words : List String)
  deriving DecidableEq, Repr

/-- What an option does: it takes a value, or it asks for help or for the version. -/
inductive Effect where
  | takes (kind : ValueKind)
  | help
  | version
  deriving DecidableEq, Repr

structure Parameter where
  name : String
  short : Option Char
  effect : Effect
  deriving DecidableEq, Repr

/-- What may be given at one place of a command line: options, positional words by their kinds, and
commands. -/
structure Grammar where
  options : List Parameter
  positionals : List Parameter
  commands : List String
  deriving Repr

namespace ValueKind

def check (text : String) : ValueKind → Except Usage Unit
  | path => if text.isEmpty then .error .emptyValue else .ok ()
  | number =>
    if (Decimal.readBelow? Decimal.limit64 text.toList).isSome then .ok () else .error .notANumber
  | choice words => if words.contains text then .ok () else .error .wrongChoice

end ValueKind

abbrev Values := List (String × String)

def Values.get? (vs : Values) (name : String) : Option String :=
  (vs.find? (·.1 = name)).map (·.2)

/-- The state between two words: values that were looked at, a parameter with the value that is not yet
looked at, and whether it still waits for that value. -/
structure Reading where
  values : Values := []
  pending : Option (Parameter × Option String) := none
  awaiting : Bool := false
  positionals : Nat := 0
  onlyPositional : Bool := false

/-- What a word was taken for. -/
inductive Step where
  | reading (r : Reading)
  | command (name : String) (r : Reading)

namespace Reading

def accept (r : Reading) (p : Parameter) (value : Option String) : Except Usage Reading :=
  match p.effect, value with
  | .help, _ => .error .help
  | .version, _ => .error .version
  | .takes _, none => .error .missingValue
  | .takes kind, some text => do
    if (r.values.get? p.name).isSome then .error .repeated
    else
      kind.check text
      return { r with values := r.values ++ [(p.name, text)] }

/-- Looks at the value that is pending. -/
def settle (r : Reading) : Except Usage Reading :=
  match r.pending with
  | none => .ok r
  | some (p, value) => { r with pending := none, awaiting := false }.accept p value

/-- Begins an option, with the value that is attached to it if there is one. -/
def enter (r : Reading) (p : Parameter) (attached : Option String) : Except Usage Reading := do
  let r ← r.settle
  match attached, p.effect with
  | none, .takes _ => return { r with pending := some (p, none), awaiting := true }
  | _, _ => r.accept p attached

/-- A word that begins with two dashes: a name, and perhaps a value after an equals sign. -/
def long (g : Grammar) (r : Reading) (body : List Char) : Except Usage Reading :=
  let name := String.ofList (body.takeWhile (· ≠ '='))
  let attached := match body.dropWhile (· ≠ '=') with
    | _ :: value => some (String.ofList value)
    | [] => none
  match g.options.find? (·.name = name) with
  | none => .error .unknownArgument
  | some p =>
    match p.effect, attached with
    | .takes _, _ | _, none => r.enter p attached
    | _, some _ => .error .unneededValue

/-- A word that begins with one dash: letters of options; what follows the first one that takes a value
is that value, perhaps after an equals sign. -/
def short (g : Grammar) (r : Reading) : List Char → Except Usage Reading
  | [] => .ok r
  | c :: rest =>
    match g.options.find? (·.short = some c) with
    | none => .error .unknownArgument
    | some p =>
      match p.effect with
      | .takes _ =>
        let attached := match rest with
          | [] => none
          | '=' :: value => some (String.ofList value)
          | value => some (String.ofList value)
        r.enter p attached
      | _ => do
        let r ← r.enter p none
        r.short g rest

/-- A word that is no option: the value that is waited for, or the next positional one. -/
def plain (g : Grammar) (r : Reading) (word : String) : Except Usage Reading :=
  match g.positionals[r.positionals]? with
  | some p => do
    let r ← r.settle
    return { r with pending := some (p, some word), positionals := r.positionals + 1 }
  | none =>
    if g.commands ≠ [] ∧ ¬(r.onlyPositional ∧ g.commands.contains word) then .error .unknownCommand
    else .error .unknownArgument

/-- Takes one word. A command's name is one unless a value is waited for. -/
def step (g : Grammar) (r : Reading) (word : String) : Except Usage Step := do
  if r.onlyPositional then return .reading (← r.plain g word)
  else if !r.awaiting && g.commands.contains word then return .command word r
  else
    match word.toList with
    | ['-', '-'] => return .reading { r with onlyPositional := true }
    | '-' :: '-' :: body => return .reading (← r.long g body)
    | '-' :: c :: body => return .reading (← r.short g (c :: body))
    | _ =>
      match r.awaiting, r.pending with
      | true, some (p, _) => return .reading { r with pending := some (p, some word), awaiting := false }
      | _, _ => return .reading (← r.plain g word)

/-- Takes words until they end or a command is named: the state, and the command with the words behind
it. -/
def run (g : Grammar) (r : Reading) : List String → Except Usage (Reading × Option (String × List String))
  | [] => .ok (r, none)
  | word :: rest => do
    match ← r.step g word with
    | .reading r => r.run g rest
    | .command name r => return (r, some (name, rest))

end Reading

end DecodePipeline.CommandLine
