import DecodePipeline.CommandLine.Execute
import DecodePipeline.FileTree.Record
import DecodePipeline.Json.Reader
import DecodePipeline.Json.Writer
import DecodePipeline.Shell.System

/-!
The program: carries out a command line in a file tree. The tree is read from standard input as a record
of paths, and the command is carried out in its topmost directory; the decoder is a script in the tree.
The file tree that is left goes to standard output behind what the command itself prints, if `TREE` is set.
-/

namespace DecodePipeline.Program

def knownVariables : List String :=
  [Config.decoderVariable, Config.outputVariable, Config.workersVariable]

def environment : IO Config.Environment := do
  let found ← knownVariables.mapM fun name => do return (name, ← IO.getEnv name)
  return fun name => (found.find? (·.1 = name)).bind (·.2)

/-- Where the record of standard input is put. -/
def workplace : Location := ["work"]

def treeOf (text : String) : FileTree :=
  (FileTree.system.plant workplace .directory).withRecord workplace ((Json.read? text).getD .null)

def usageLine (u : CommandLine.Usage) : String :=
  match u with
  | .version => CommandLine.versionText
  | .help | .nothingGiven => "usage: decodeflow [--config FILE] run|sources|config [ARGUMENTS]\n"
  | _ => "error: these arguments cannot be read\n"

def run (words : List String) : IO UInt32 := do
  match CommandLine.read words with
  | .error u =>
    if u.exitCode = 0 then IO.print (usageLine u) else IO.eprint (usageLine u)
    return u.exitCode.toUInt32
  | .ok line =>
    let tree := treeOf (← (← IO.getStdin).readToEnd)
    let name := "run-" ++ toString (← IO.monoMsNow)
    let result := CommandLine.execute ⟨tree, workplace, ← environment, name⟩ line
    IO.print result.output
    IO.eprint result.errors
    if (← IO.getEnv "TREE").isSome then IO.println (result.tree.toRecord workplace).render
    return result.exitCode.toUInt32

end DecodePipeline.Program

def main (words : List String) : IO UInt32 := DecodePipeline.Program.run words
