import DecodePipeline.Decoder.Decode
import DecodePipeline.Manifest
import DecodePipeline.Run.Schedule
import DecodePipeline.SourceDirectory

/-!
A run at work in a file tree. The catalog is a directory, the decoder is a program, and the renderer may
write a manifest. A call changes the tree when it begins; its result is known then, and the run learns of
it when the call's time is over.
-/

namespace DecodePipeline

/-- The collaborators of a run, and the directory that their paths start from. -/
structure Crew where
  directory : Location
  catalog : SourceDirectory
  decoder : Decoder
  renderer : Renderer

structure Session where
  tree : FileTree
  run : Run

/-- The item that a worker is about to call the decoder for. -/
def Worker.next? (x : Worker) : Option WorkItem :=
  match x.point with
  | .busy (.waiting item) => some item
  | _ => none

/-- The set that is being checked. -/
def Consumption.checked? (c : Consumption) : Option ArtifactSet :=
  match c.point with
  | .checking set => some set
  | _ => none

namespace Crew

def replyOf {α : Type} : Except Failure α → Reply (List String) α
  | .ok value => .gives value
  | .error failure => .fails failure.messages

def instantly {α : Type} (result : Except Failure α) : Behaviour (List String) α :=
  ⟨some 0, replyOf result⟩

/-- How a decoder call looks to the run. -/
def behaviourOf (done : Attempted) : DecoderBehaviour :=
  let reply := match done.result with
    | .ok files => .gives ⟨files, files⟩
    | .error fault => .fails fault
  { delay := some done.elapsed, reply, heeds := true }

def decode (c : Crew) (s : Session) (item : WorkItem) : Attempted :=
  c.decoder.decode s.run.settings.transformTimeout none c.directory item s.tree

def present (c : Crew) (s : Session) (e : Manifest.Event) : FileTree × Except Failure Unit :=
  c.renderer.present s.tree c.directory e

/-- The sequence number of the next set that is shown to the renderer. -/
def nextSeq (s : Session) : Nat := ((s.run.consumption.map (·.accepted)).getD 0) + 1

/-- The collaborators as they would answer now; no decoder call begins. -/
def world (c : Crew) (s : Session) : World :=
  { catalog := fun _ => instantly (c.catalog.list s.tree c.directory)
    decoder := fun _ _ => { delay := none, reply := .panics, heeds := true }
    reset := instantly (c.present s (.reset Instant.epoch)).2
    accept := fun _ set => instantly (c.present s (.accept (nextSeq s) set)).2 }

def eventOf : RendererCall → Manifest.Event
  | .reset _ => .reset Instant.epoch
  | .accept _ seq set => .accept seq set

def workerTurn (c : Crew) (s : Session) (i : Nat) : Option Session :=
  let w := c.world s
  match (s.run.workers[i]?).bind Worker.next? with
  | some item =>
    if s.run.hub.cancelled ∨ s.run.hub.slots = 0 then
      (s.run.stepTurn w (.worker i)).map fun run => { s with run }
    else
      let done := c.decode s item
      (s.run.stepTurn { w with decoder := fun _ _ => behaviourOf done } (.worker i)).map fun run =>
        ⟨done.tree, run⟩
  | none => (s.run.stepTurn w (.worker i)).map fun run => { s with run }

/-- The run sees the files of the set that is being checked as they are now. -/
def withFiles (c : Crew) (s : Session) : Session :=
  match s.run.consumption.bind Consumption.checked? with
  | none => s
  | some set =>
    let present := set.files.filter (s.tree.exists? c.directory)
    { s with run := { s.run with hub := { s.run.hub with present } } }

def consumptionTurn (c : Crew) (s : Session) : Option Session :=
  let s := c.withFiles s
  (s.run.stepTurn (c.world s) .consumption).map fun run =>
    let calls := run.hub.rendererCalls.drop s.run.hub.rendererCalls.length
    { tree := calls.foldl (fun t call => (c.renderer.present t c.directory (eventOf call)).1) s.tree, run }

def turn (c : Crew) (s : Session) : Run.Turn → Option Session
  | .worker i => c.workerTurn s i
  | .consumption => c.consumptionTurn s
  | t => (s.run.stepTurn (c.world s) t).map fun run => { s with run }

def host (c : Crew) : Host Session :=
  ⟨Session.run, fun f s => { s with run := f s.run }, c.turn⟩

/-- A run that watches for sources without end is given up after so many milliseconds. -/
def horizon : Nat := 1000000000

def perform (c : Crew) (s : Settings) (t : FileTree) : Except Fault Session := do
  let run ← (← Run.make s).start
  return (c.host.play { horizon } ⟨t, run⟩ fun r => r.lifecycle = .stopped).2

end Crew

end DecodePipeline
