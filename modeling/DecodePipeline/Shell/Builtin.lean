import DecodePipeline.Shell.Machine

/-!
The commands that change the shell that runs them: its variables and arguments, its descriptors, its
loops and functions, and its end.
-/

namespace DecodePipeline.Shell

namespace Machine

def proceed (m : Machine) (p : Process) (status : Nat) : Machine := m.put (p.withStatus status)

def object (m : Machine) (p : Process) (status : Nat) (text : String) : Machine :=
  (m.complainLine p text).proceed p status

def giveUp (m : Machine) (p : Process) (status : Nat) (text : String) : Machine :=
  (m.complainLine p text).put (p.exit status)

end Machine

namespace Builtin

def firstNumber (name : String) (default : Nat) : List String → Except String Nat
  | [] => .ok default
  | w :: _ =>
    match Decimal.read? w.toList with
    | some n => .ok n
    | none => .error (name ++ ": Illegal number: " ++ w)

def withNumber (m : Machine) (p : Process) (name : String) (default : Nat) (ws : List String)
    (f : Nat → Machine) : Machine :=
  match firstNumber name default ws with
  | .ok n => f n
  | .error text => m.giveUp p 2 text

def shift (m : Machine) (p : Process) (ws : List String) : Machine :=
  withNumber m p "shift" 1 ws fun n =>
    if p.shell.arguments.length < n then m.giveUp p 2 "shift: can't shift that many"
    else m.proceed { p with shell := { p.shell with arguments := p.shell.arguments.drop n } } 0

/-- Sets or clears options by their letters. -/
def applyFlags (on : Bool) (s : State) (letters : List Char) : State :=
  letters.foldl (fun s c =>
    if c = 'e' then { s with failFast := on } else if c = 'u' then { s with strict := on } else s) s

def setWords : List String → State → State
  | [], s => s
  | w :: rest, s =>
    match w.toList with
    | ['-', '-'] => { s with arguments := rest }
    | '-' :: 'o' :: _ | '+' :: 'o' :: _ => s
    | '-' :: c :: cs => setWords rest (applyFlags true s (c :: cs))
    | '+' :: c :: cs => setWords rest (applyFlags false s (c :: cs))
    | _ => { s with arguments := w :: rest }

/-- A word of the form `name=value`. -/
def assignment? (w : String) : Option (String × String) :=
  match w.toList.dropWhile (· ≠ '=') with
  | _ :: value => some (String.ofList (w.toList.takeWhile (· ≠ '=')), String.ofList value)
  | [] => none

def declare (m : Machine) (p : Process) (ws : List String) : Machine :=
  let shell := ws.foldl (fun (s : State) w =>
    match assignment? w with
    | some (name, value) => s.set name value
    | none => s) p.shell
  m.proceed { p with shell } 0

/-- Makes variables that get their values back at the end of the function. -/
def declareLocal (m : Machine) (p : Process) (ws : List String) : Machine :=
  let resets := ws.map fun w =>
    let name := ((assignment? w).map (·.1)).getD w
    Task.reset name (p.shell.bindings.get? name)
  let before := p.todo.takeWhile fun
    | .leave _ => false
    | _ => true
  let p := { p with todo := before ++ resets ++ p.todo.drop before.length }
  declare m p ws

def unset (m : Machine) (p : Process) (ws : List String) : Machine :=
  let (letters, names) := Tool.splitOptions ws
  let shell := names.foldl (fun (s : State) name =>
    if letters.contains 'f' then { s with functions := s.functions.filter (·.1 ≠ name) }
    else { s with bindings := s.bindings.erase name }) p.shell
  m.proceed { p with shell } 0

def cd (m : Machine) (p : Process) (ws : List String) : Machine :=
  let path := (ws.head? <|> p.shell.bindings.get? "HOME").getD "."
  match m.tree.directory p.directory path with
  | .ok directory =>
    m.proceed { p with directory, shell := p.shell.set "PWD" (Location.text directory) } 0
  | .error _ => m.object p 2 ("cd: can't cd to " ++ path)

def trap (m : Machine) (p : Process) (ws : List String) : Machine :=
  match ws with
  | [] => m.proceed p 0
  | [_] => m.proceed p 0
  | action :: names =>
    let canonical (name : String) : String := ((Machine.signal? name).map Machine.signalName).getD name
    let others := p.shell.traps.filter fun t => !(names.map canonical).contains t.1
    let traps := if action = "-" then others else others ++ names.map fun n => (canonical n, action)
    m.proceed { p with shell := { p.shell with traps } } 0

/-- The signal that the words in front ask for, and the other words. -/
def signalOption : List String → Option Nat × List String
  | "-s" :: name :: rest => (Machine.signal? name, rest)
  | w :: rest =>
    match w.toList with
    | '-' :: c :: cs => (Machine.signal? (String.ofList (c :: cs)), rest)
    | _ => (some 15, w :: rest)
  | [] => (some 15, [])

def kill (m : Machine) (p : Process) (ws : List String) : Machine :=
  let (signal, targets) := signalOption ws
  match signal with
  | none => m.object p 2 "kill: invalid signal number or name"
  | some n =>
    targets.foldl (fun m t =>
      match Decimal.read? t.toList with
      | some id =>
        if m.hasEnded id then
          match m.find? p.id with
          | some q => m.object q 1 "kill: No such process\n"
          | none => m
        else m.kill id n
      | none =>
        match m.find? p.id with
        | some q => m.object q 2 ("kill: Illegal number: " ++ t)
        | none => m) (m.proceed p 0)

def waitFor (m : Machine) (p : Process) (ws : List String) : Machine :=
  let asked := ws.filterMap fun w => Decimal.read? w.toList
  if asked.isEmpty then
    let ids := (m.processes.filter (·.parent = p.id)).map (·.id)
    m.put { p.push [.status 0] with wait := .ends ids }
  else m.put { p.push (asked.map Task.adopt) with wait := .ends asked }

/-- Gives the fields of a line to variables; the last one takes what is left. -/
def giveFields (separators : List Char) : List String → List Char → State → State
  | [], _, s => s
  | [name], line, s =>
    let blank (c : Char) : Bool := separators.contains c && (c = ' ' || c = '\t')
    s.set name (String.ofList ((line.dropWhile blank).reverse.dropWhile blank).reverse)
  | name :: names, line, s =>
    let blank (c : Char) : Bool := separators.contains c && (c = ' ' || c = '\t')
    let line := line.dropWhile blank
    let field := line.takeWhile fun c => !separators.contains c
    let rest := match line.drop field.length with
      | c :: r => if blank c then r.dropWhile blank else r
      | [] => []
    giveFields separators names rest (s.set name (String.ofList field))

/-- Reads a line, or waits for one. -/
def read (m : Machine) (p : Process) (ws : List String) : Machine :=
  let names := (Tool.splitOptions ws).2
  let take (m : Machine) (bytes : List UInt8) (status : Nat) : Machine :=
    let line := (Text.decodeLossy bytes).toList
    m.proceed { p with shell := giveFields p.shell.separators names line p.shell } status
  match p.handles.get? 0 with
  | some (.inlet c) =>
    let bytes := (m.content c).flatten
    let line := bytes.takeWhile (· ≠ 10)
    if line.length < bytes.length then take (m.setContent c (bytes.drop (line.length + 1))) line 0
    else if m.isOpen c then m.put { p.push [.invoke ("read" :: ws)] with wait := .input c true }
    else take (m.setContent c []) line 1
  | _ => take m [] 1

def runText (m : Machine) (p : Process) (text : String) : Machine :=
  m.put ((p.push ((readScript text).map Task.command)).withStatus 0)

def runFile (m : Machine) (p : Process) (path : String) : Machine :=
  match m.tree.read p.directory path with
  | .ok bytes => runText m p (Text.decodeLossy bytes)
  | .error _ => m.giveUp p 2 (".: cannot open " ++ path ++ ": No such file")

def run? (m : Machine) (p : Process) (name : String) (ws : List String) : Option Machine :=
  match name with
  | "exit" => some (withNumber m p "exit" p.shell.status ws fun n => m.put (p.exit n))
  | "return" =>
    some (withNumber m p "return" p.shell.status ws fun n => m.put ((Process.leaveFunction p.todo p).withStatus n))
  | "break" =>
    some (withNumber m p "break" 1 ws fun n => m.put ((Process.leaveLoops false n p.todo p).withStatus 0))
  | "continue" =>
    some (withNumber m p "continue" 1 ws fun n => m.put ((Process.leaveLoops true n p.todo p).withStatus 0))
  | "shift" => some (shift m p ws)
  | "set" => some (m.proceed { p with shell := setWords ws p.shell } 0)
  | "export" | "readonly" => some (declare m p ws)
  | "local" => some (declareLocal m p ws)
  | "unset" => some (unset m p ws)
  | "cd" => some (cd m p ws)
  | "pwd" => some (((m.write p 1 (Text.encodeUtf8 (Location.text p.directory ++ "\n"))).getD m).proceed p 0)
  | "trap" => some (trap m p ws)
  | "kill" => some (kill m p ws)
  | "wait" => some (waitFor m p ws)
  | "read" => some (read m p ws)
  | "eval" => some (runText m p (" ".intercalate ws))
  | "." => some (runFile m p (ws.headD ""))
  | "umask" | "ulimit" | "times" | "hash" => some (m.proceed p 0)
  | _ => none

end Builtin

end DecodePipeline.Shell
