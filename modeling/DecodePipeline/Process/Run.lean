import DecodePipeline.Process.Tail
import DecodePipeline.Shell.Step

/-!
Running a program to its end. Its input is empty and its output is thrown away; the end of its error
stream is kept. It may take a limited time, and the run may be given up before that. The end of the
program counts, not that of the stream: what a process in the background writes is waited for only for a
short while.
-/

namespace DecodePipeline

structure Invocation where
  program : String
  arguments : List String
  deriving DecidableEq, Repr

/-- How a run went: the file tree then, how many milliseconds it took, and its result. -/
structure Completion where
  tree : FileTree
  elapsed : Nat
  result : Except Fault Outcome

namespace Invocation

/-- How long the error stream may stay open after the program has ended. -/
def grace : Nat := 250

/-- How many steps all processes may take together. -/
def stepLimit : Nat := 200000

/-- The channel of the error stream. -/
def errorChannel : Nat := 0

def spawnFault (i : Invocation) (e : SystemError) : Fault := .spawn i.program e

/-- The machine at the start of a program, and the program's number. -/
def start (i : Invocation) (t : FileTree) (cwd : Location) : Except SystemError (Shell.Machine × Nat) := do
  let words := i.program :: i.arguments
  if words.any fun w => w.toList.contains '\x00' then throw .zeroInText
  let program ← Program.find t cwd i.program
  let (shell, todo) := Shell.Machine.programTasks t cwd program words
  let m : Shell.Machine := { tree := t, channels := #[[]] }
  let first : Shell.Process :=
    { id := m.nextId, parent := 0, shell := { shell with id := m.nextId }.set "PWD" (Location.text cwd)
      handles := [(0, .nothing), (1, .nothing), (2, .outlet errorChannel)], directory := cwd, todo }
  return ({ m with processes := [first], nextId := m.nextId + 1 }, first.id)

def tailOf (m : Shell.Machine) : String := (Tail.ofChunks (m.content errorChannel)).text

/-- Runs a program in a directory for at most `limit`, unless it is given up at `cancelAt`. -/
def run (i : Invocation) (t : FileTree) (cwd : Location) (limit : Span) (cancelAt : Option Nat) : Completion :=
  match i.start t cwd with
  | .error e => ⟨t, 0, .error (i.spawnFault e)⟩
  | .ok (m, id) =>
    let cancelled := cancelAt.any (· ≤ limit.millis)
    let deadline := if cancelled then cancelAt.getD 0 else limit.millis
    let m := m.runUntil (·.hasEnded id) deadline stepLimit
    match (m.ended.find? (·.1 = id)).map (·.2), decide (m.clock < deadline) with
    | some ending, true =>
      let m := m.runUntil (fun m => !m.isOpen errorChannel) (m.clock + grace) stepLimit
      ⟨m.tree, m.clock, .ok ⟨some ending, tailOf m⟩⟩
    | _, _ =>
      ⟨m.tree, deadline, if cancelled then .error .cancelled else .ok ⟨none, tailOf m⟩⟩

end Invocation

end DecodePipeline
