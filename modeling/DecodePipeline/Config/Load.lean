import DecodePipeline.FileTree.Operation
import DecodePipeline.Options
import DecodePipeline.Yaml.Value

/-!
Where a configuration comes from: a file that is named, or the nearest one in the working directory and
those above it, or none. Relative paths in a file are meant from the directory above the one that holds
the file; the environment is laid over what the file says.
-/

namespace DecodePipeline

structure ConfigFile where
  version : Option String := none
  config : Config := {}
  deriving Repr

namespace ConfigFile

def members : List String := ["version", "pipeline"]

def ofRecord? {ν : Type} (f : Format ν) (v : ν) : Option ConfigFile := do
  match ← f.record? members v with
  | [version, config] =>
    return {
      version := ← Format.orElse none (f.nullable f.text?) version
      config := ← Format.orElse {} (Config.ofRecord? f) config }
  | _ => none

def read? (text : String) : Option ConfigFile := do
  ofRecord? Yaml.Value.format (← Yaml.Document.read? text).value

def directoryName : String := ".decodeflow"

def fileName : String := "config.yaml"

/-- The nearest configuration file from a directory upward. -/
def findFrom? (t : FileTree) (cwd : Location) (start : String) : Option String :=
  (((Path.ancestors (start.length + 1) start).map fun above =>
    Path.join (Path.join above directoryName) fileName).find? (t.exists? cwd))

/-- The nearest configuration file from the working directory upward. -/
def find? (t : FileTree) (cwd : Location) : Option String :=
  findFrom? t cwd cwd.text

def load (t : FileTree) (cwd : Location) (path : String) : Except Failure ConfigFile :=
  match t.readText cwd path with
  | .error e => .error (.context ("Failed to read config file: " ++ path) (some e))
  | .ok text =>
    match read? text with
    | some file => .ok file
    | none => .error (.context ("Failed to parse config file: " ++ path) none)

/-- The directory that relative paths in a configuration file are meant from. -/
def projectRoot (path : String) : String :=
  ((Path.parent? path).bind Path.parent?).getD "."

end ConfigFile

/-- A path as it is meant from `base`: without links where it leads to something, else as written. -/
def resolvePath (t : FileTree) (cwd : Location) (base path : String) : String :=
  if Path.isAbsolute path then path
  else
    match t.canonical cwd (Path.join base path) with
    | .ok there => there
    | .error _ => Path.join base path

namespace Config

/-- The paths as they are meant from `base`. A decoder that is a bare name stays one. -/
def withPathsFrom (t : FileTree) (cwd : Location) (base : String) (c : Config) : Config :=
  { c with
    decoder := if 1 < (Path.components c.decoder).length then resolvePath t cwd base c.decoder else c.decoder
    optionsFile := c.optionsFile.map (resolvePath t cwd base)
    outputRoot := resolvePath t cwd base c.outputRoot }

/-- The options in the options file; without one there are none. -/
def loadOptions (t : FileTree) (cwd : Location) (c : Config) : Except Fault (List String) :=
  match c.optionsFile with
  | none => .ok []
  | some path =>
    match t.readText cwd path with
    | .ok text => .ok (Options.parse text)
    | .error e => .error (.config ("Failed to read options file " ++ path ++ ": " ++ e.message))

end Config

/-- A configuration, and the file that it came from with the version that the file gives. -/
structure LoadedConfig where
  file : Option String
  version : Option String
  config : Config
  deriving Repr

namespace LoadedConfig

def choose (t : FileTree) (cwd : Location) : Option String → Except Failure (Option String)
  | some path =>
    if t.exists? cwd path then .ok (some path)
    else .error (.context ("Config file not found: " ++ path) none)
  | none => .ok (ConfigFile.find? t cwd)

/-- The configuration from its file, or the default one, with the environment laid over it. -/
def load (t : FileTree) (cwd : Location) (env : Config.Environment) (path : Option String) :
    Except Failure LoadedConfig := do
  let file ← choose t cwd path
  let (version, config) ←
    match file with
    | none => pure (none, ({} : Config))
    | some path => do
      let read ← ConfigFile.load t cwd path
      pure (read.version, read.config.withPathsFrom t cwd (ConfigFile.projectRoot path))
  match config.withEnvironment env with
  | (config, .ok _) => return ⟨file, version, config⟩
  | (_, .error fault) => .error (.fault fault)

end LoadedConfig

end DecodePipeline
