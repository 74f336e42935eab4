import DecodePipeline.Process.Outcome
import DecodePipeline.Shell.Expansion
import DecodePipeline.Shell.Reader
import DecodePipeline.Shell.Tool

/-!
Shells at work: processes with what they still have to do, the channels between them, and the clock that
they share. A process is named by its number.
-/

namespace DecodePipeline.Shell

/-- What a descriptor of a process leads to. -/
inductive Handle where
  | nothing
  | zeros
  | file (location : Location)
  /-- The end of a channel that is read from. -/
  | inlet (channel : Nat)
  /-- The end of a channel that is written to. -/
  | outlet (channel : Nat)
  deriving DecidableEq, Repr

abbrev Handles := List (Nat × Handle)

namespace Handles

def get? (hs : Handles) (d : Nat) : Option Handle := (hs.find? (·.1 = d)).map (·.2)

def close (hs : Handles) (d : Nat) : Handles := hs.filter (·.1 ≠ d)

def set (hs : Handles) (d : Nat) (h : Handle) : Handles := (d, h) :: hs.close d

def writesTo (hs : Handles) (channel : Nat) : Bool := hs.any (·.2 = .outlet channel)

end Handles

inductive Wait where
  | nothing
  | time (clock : Nat)
  | ends (processes : List Nat)
  /-- All that will be written to a channel, or at least a line of it. -/
  | input (channel : Nat) (line : Bool)
  deriving DecidableEq, Repr

/-- One thing that a process has to do. -/
inductive Task where
  | command (c : Command)
  | invoke (words : List String)
  | andThen (c : Command)
  | orElse (c : Command)
  | negate
  | choose (body otherwise : List Command)
  | loop (untilTrue : Bool) (test body : List Command) (entered : Bool)
  | decide (untilTrue : Bool) (test body : List Command) (last : Nat)
  | each (name : String) (values : List String) (body : List Command)
  /-- Failures count again. -/
  | strict
  /-- A failure may end the shell here. -/
  | check
  | restore (handles : Handles)
  | reset (name : String) (value : Option String)
  | leave (arguments : List String)
  /-- Takes over the status of a process that has ended. -/
  | adopt (process : Nat)
  | status (n : Nat)
  /-- Goes on with the command that waited for what was written to a channel. -/
  | collect (channel process : Nat) (fill : String → Command)
  | finish

structure Process where
  id : Nat
  parent : Nat
  shell : State
  handles : Handles
  directory : Location
  todo : List Task
  wait : Wait := .nothing

structure Machine where
  tree : FileTree
  clock : Nat := 0
  /-- What was written to each channel and not yet read, the newest first. -/
  channels : Array (List (List UInt8)) := #[]
  processes : List Process := []
  ended : List (Nat × Exit) := []
  nextId : Nat := 100

namespace Task

def keepsOpen (channel : Nat) : Task → Bool
  | restore handles => handles.writesTo channel
  | _ => false

def isLoop : Task → Bool
  | loop .. | decide .. | each .. => true
  | _ => false

end Task

namespace Process

def push (p : Process) (tasks : List Task) : Process := { p with todo := tasks ++ p.todo }

def withStatus (p : Process) (status : Nat) : Process := { p with shell := p.shell.withStatus status }

def keepsOpen (p : Process) (channel : Nat) : Bool :=
  p.handles.writesTo channel || p.todo.any (·.keepsOpen channel)

/-- Gives up one task, undoing what it was to undo. -/
def giveUp (p : Process) : Task → Process
  | .strict => { p with shell := { p.shell with lenient := p.shell.lenient - 1 } }
  | .restore handles => { p with handles }
  | .reset name value =>
    let bindings := match value with
      | some v => p.shell.bindings.set name v
      | none => p.shell.bindings.erase name
    { p with shell := { p.shell with bindings } }
  | .leave arguments => { p with shell := { p.shell with arguments } }
  | _ => p

/-- Gives up tasks up to the innermost loop, or so many loops further out; the last of them goes on if
`stay` says so. -/
def leaveLoops (stay : Bool) : Nat → List Task → Process → Process
  | _, [], p => { p with todo := [] }
  | n, t :: rest, p =>
    match t with
    | .leave _ => { p with todo := t :: rest }
    | _ =>
      if t.isLoop then
        if n ≤ 1 then { p with todo := if stay then t :: rest else rest }
        else leaveLoops stay (n - 1) rest p
      else leaveLoops stay n rest (p.giveUp t)

/-- Gives up tasks up to the end of the function that is being run, or all. -/
def leaveFunction : List Task → Process → Process
  | [], p => { p with todo := [] }
  | t :: rest, p =>
    match t with
    | .leave _ => { p.giveUp t with todo := rest }
    | _ => leaveFunction rest (p.giveUp t)

/-- Ends with a status, but runs first what was to be run at the end. -/
def exit (p : Process) (status : Nat) : Process :=
  let p := (p.todo.foldl giveUp p).withStatus (status % 256)
  { p with todo := [.finish] }

end Process

namespace Machine

def find? (m : Machine) (id : Nat) : Option Process := m.processes.find? (·.id = id)

def put (m : Machine) (p : Process) : Machine :=
  { m with processes := m.processes.map fun q => if q.id = p.id then p else q }

def finish (m : Machine) (id : Nat) (e : Exit) : Machine :=
  { m with processes := m.processes.filter (·.id ≠ id), ended := (id, e) :: m.ended }

def hasEnded (m : Machine) (id : Nat) : Bool := !m.processes.any (·.id = id)

/-- What a shell sees of a process that has ended. -/
def statusOf (m : Machine) (id : Nat) : Nat :=
  match m.ended.find? (·.1 = id) with
  | some (_, .exited code) => code
  | some (_, .signalled signal) => 128 + signal
  | none => 127

/-! ## Channels -/

def newChannel (m : Machine) (content : List UInt8) : Machine × Nat :=
  ({ m with channels := m.channels.push [content] }, m.channels.size)

def isOpen (m : Machine) (channel : Nat) : Bool := m.processes.any (·.keepsOpen channel)

def content (m : Machine) (channel : Nat) : List (List UInt8) := ((m.channels[channel]?).getD []).reverse

def setContent (m : Machine) (channel : Nat) (bytes : List UInt8) : Machine :=
  { m with channels := m.channels.setIfInBounds channel [bytes] }

/-- Takes all there is. -/
def drain (m : Machine) (channel : Nat) : Machine × List UInt8 :=
  (m.setContent channel [], (m.content channel).flatten)

/-- Writes through a descriptor; nothing comes of it if that is closed. -/
def write (m : Machine) (p : Process) (descriptor : Nat) (bytes : List UInt8) : Option Machine :=
  if bytes.isEmpty then some m
  else
    match p.handles.get? descriptor with
    | some .nothing | some .zeros => some m
    | some (.file l) => some { m with tree := m.tree.extend l bytes }
    | some (.outlet c) => some { m with channels := m.channels.modify c (bytes :: ·) }
    | some (.inlet _) | none => none

def complain (m : Machine) (p : Process) (text : String) : Machine :=
  (m.write p 2 (Text.encodeUtf8 text)).getD m

/-- A complaint of the shell itself. -/
def complainLine (m : Machine) (p : Process) (text : String) : Machine :=
  m.complain p (p.shell.complaint text)

/-! ## Processes -/

/-- Starts a process as a child of another. -/
def fork (m : Machine) (p : Process) (handles : Handles) (shell : State) (todo : List Task) : Machine × Nat :=
  let child : Process := { id := m.nextId, parent := p.id, shell, handles, directory := p.directory, todo }
  ({ m with processes := m.processes ++ [child], nextId := m.nextId + 1 }, child.id)

def forkAndWait (m : Machine) (p : Process) (todo : List Task) : Machine :=
  let (m, id) := m.fork p p.handles p.shell.child todo
  m.put { p.push [.adopt id, .check] with wait := .ends [id] }

def signals : List (String × Nat) :=
  [("HUP", 1), ("INT", 2), ("QUIT", 3), ("ABRT", 6), ("KILL", 9), ("USR1", 10), ("SEGV", 11), ("USR2", 12),
    ("PIPE", 13), ("ALRM", 14), ("TERM", 15), ("CHLD", 17), ("CONT", 18)]

/-- A signal by number or by name, with or without the usual letters in front. -/
def signal? (text : String) : Option Nat :=
  match Decimal.read? text.toList with
  | some n => some n
  | none =>
    let name := if "SIG".toList.isPrefixOf text.toList then String.ofList (text.toList.drop 3) else text
    (signals.find? (·.1 = name)).map (·.2)

def signalName (n : Nat) : String :=
  if n = 0 then "EXIT" else ((signals.find? (·.2 = n)).map (·.1)).getD (toString n)

/-- Signals that nothing comes of. -/
def isHarmless (n : Nat) : Bool := n = 0 || n = 17 || n = 18

def kill (m : Machine) (id signal : Nat) : Machine :=
  match m.find? id with
  | none => m
  | some p =>
    let action := if signal = 9 then none else p.shell.traps.find? (·.1 = signalName signal)
    match action with
    | some (_, "") => m
    | some (_, script) =>
      m.put (p.push ((readScript script).map Task.command ++ [.status p.shell.status]))
    | none => if isHarmless signal then m else m.finish id (.signalled signal)

end Machine

end DecodePipeline.Shell
