import DecodePipeline.FileTree.Operation
import DecodePipeline.Json.Record

/-!
A file tree as a record: each member gives a path below some directory and what is there. A text is a
file, nothing is a directory, a record may name the target of a link or hold the body of a script.
-/

namespace DecodePipeline.FileTree

def scriptText (body : String) : String := "#!/bin/sh\n" ++ body ++ "\n"

/-- Puts what a member describes into the tree, with the directories above it. -/
def putMember (t : FileTree) (cwd : Location) (path : String) (value : Json) : FileTree :=
  let t := (t.createDirectories cwd ((Path.parent? path).getD "")).1
  let file (text : String) (executable : Bool) : FileTree :=
    match t.openForWriting cwd path with
    | .ok (t, l, _) => t.put l (.file (Text.encodeUtf8 text) executable)
    | .error _ => t
  match value with
  | .null => (t.createDirectories cwd path).1
  | .str text => file text false
  | value =>
    match (value.field? "link").bind Json.text?, (value.field? "exec").bind Json.text? with
    | some target, _ =>
      match t.resolve cwd false path with
      | .ok spot => t.put spot.location (.link target)
      | .error _ => t
    | none, some body => file (scriptText body) true
    | none, none => t

/-- Puts all that a record describes below a directory. -/
def withRecord (t : FileTree) (cwd : Location) : Json → FileTree
  | .obj members => members.foldl (fun t m => t.putMember cwd m.1 m.2) t
  | _ => t

def nodeJson : Node → Json
  | .file content _ => .str (Text.decodeLossy content)
  | .link target => .obj [("link", .str target)]
  | _ => .null

def toRecord (t : FileTree) (cwd : Location) : Json :=
  .obj ((t.below cwd).map fun (l, n) => ("/".intercalate l, nodeJson n))

end DecodePipeline.FileTree
