import DecodePipeline.Shell.Tool

/-!
The part of the file tree that the system provides: devices, and the tools that scripts call.
-/

namespace DecodePipeline.FileTree

def devices : List (String × Node) :=
  [("null", .sink), ("zero", .zeros), ("stdin", .stream 0), ("stdout", .stream 1), ("stderr", .stream 2)]

/-- A tree with nothing but the devices and the tools. -/
def system : FileTree :=
  let tools := ("sh" :: Shell.Tool.externalNames).map fun name => (["usr", "bin", name], Node.tool name)
  let devices := devices.map fun (name, node) => (["dev", name], node)
  (tools ++ devices ++ [(["bin"], Node.link "usr/bin")]).foldl (fun t (l, n) => t.plant l n) ⟨[]⟩

end DecodePipeline.FileTree
