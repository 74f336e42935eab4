import DecodePipeline.Fault
import DecodePipeline.FileTree.Operation
import DecodePipeline.Json.Record

/-!
The manifest of a run: a log of what the renderer was shown, one line of JSON for each event in the order
of events. Writing only ever adds lines at the end.
-/

namespace DecodePipeline

namespace Manifest

inductive Event where
  | reset (time : Instant)
  | accept (seq : Nat) (set : ArtifactSet)
  deriving DecidableEq, Repr

namespace Event

def toJson : Event → Json
  | reset time => .obj [("event", .str "reset_view"), ("at", .str time.text)]
  | accept seq set => .obj [("event", .str "accept"), ("seq", .ofNat seq), ("set", set.toJson)]

def ofJson? (j : Json) : Option Event := do
  match ← (← j.field? "event").text? with
  | "reset_view" => return reset (← Json.instant? (← j.field? "at"))
  | "accept" =>
    let seq ← Json.natBelow? Decimal.limit64 (← j.field? "seq")
    return accept seq (← ArtifactSet.ofJson? (← j.field? "set"))
  | _ => none

def line (e : Event) : String :=
  e.toJson.render ++ "\n"

end Event

def prepare (t : FileTree) (cwd : Location) (path : String) : FileTree × Except Failure Unit :=
  match (Path.parent? path).filter fun above => !above.isEmpty with
  | none => (t, .ok ())
  | some above =>
    match t.createDirectories cwd above with
    | (t, .ok _) => (t, .ok ())
    | (t, .error e) =>
      (t, .error (.context ("Failed to create manifest directory: " ++ above) (some e)))

def append (t : FileTree) (cwd : Location) (path : String) (e : Event) :
    FileTree × Except Failure Unit :=
  match prepare t cwd path with
  | (t, .error failure) => (t, .error failure)
  | (t, .ok _) =>
    match t.append cwd path (Text.encodeUtf8 e.line) with
    | .ok t => (t, .ok ())
    | .error e => (t, .error (.context ("Failed to open manifest: " ++ path) (some e)))

end Manifest

/-- Where accepted artifact sets go: nowhere but the log, or into a manifest. -/
inductive Renderer where
  | log
  | manifest (path : String)
  deriving DecidableEq, Repr

namespace Renderer

def name : Renderer → String
  | log => "log"
  | manifest _ => "jsonl"

/-- Shows an event to the renderer. -/
def present (r : Renderer) (t : FileTree) (cwd : Location) (e : Manifest.Event) :
    FileTree × Except Failure Unit :=
  match r with
  | log => (t, .ok ())
  | manifest path => Manifest.append t cwd path e

end Renderer

end DecodePipeline
