import DecodePipeline.CommandLine.Command
import DecodePipeline.Config.Text
import DecodePipeline.Run.Report

/-!
What the commands do: run the pipeline, list the sources that it would take, or show the configuration.
The configuration is loaded first whatever the command is.
-/

namespace DecodePipeline

namespace CommandLine

/-- Where a command is carried out, and what its run is called. -/
structure Surroundings where
  tree : FileTree
  directory : Location
  environment : Config.Environment
  runName : String

/-- What a command leaves behind. -/
structure Result where
  tree : FileTree
  exitCode : Nat := 0
  output : String := ""
  errors : String := ""

def usageCode : Nat := 2

def versionText : String := "decodeflow 0.1.0\n"

def Surroundings.fail (s : Surroundings) (errors message : String) : Result :=
  { tree := s.tree, exitCode := 1, errors := errors ++ "Error: " ++ message ++ "\n" }

def missingRoot (s : Surroundings) : Result :=
  { tree := s.tree, exitCode := usageCode
    errors := "error: no source root given (pass SOURCE_ROOT or enter it at the PATH= prompt)\n" }

def showConfig (s : Surroundings) (l : LoadedConfig) : Result :=
  { tree := s.tree, output := l.text }

/-- The ids of the sources in the order in which a run would take them. -/
def listSources (s : Surroundings) (c : Config) (root : String) : Result :=
  match (SourceDirectory.make root c.sourceExtension).list s.tree s.directory with
  | .error failure => s.fail "" failure.message
  | .ok found =>
    let sources := canonicalOrder found
    if sources.isEmpty then
      { tree := s.tree, errors := "No ." ++ c.sourceExtension ++ " sources found in " ++ root ++ "\n" }
    else
      { tree := s.tree, output := String.join (sources.map (·.id ++ "\n"))
        errors := "\nTotal: " ++ toString sources.length ++ " source(s)\n" }

/-- The renderer of a run, and what is said about it. A manifest lies below the output root unless
another place is given. -/
def rendererOf (c : Config) (kind : RendererKind) (manifest : Option String) : Renderer × String :=
  match kind with
  | .log => (.log, "")
  | .jsonl =>
    let path := manifest.getD (Path.join c.outputRoot "manifest.jsonl")
    (.manifest path, "Manifest: " ++ path ++ "\n")

def crew (s : Surroundings) (c : Config) (options : List String) (root : String) (renderer : Renderer) : Crew :=
  { directory := s.directory
    catalog := .make root c.sourceExtension
    decoder :=
      { program := c.decoder, outputRoot := c.outputRoot, options, expectedFrames := c.expectedFrames
        cleanupPatterns := c.cleanupPatterns }
    renderer }

def runPipeline (s : Surroundings) (c : Config) (root : String) (kind : RendererKind)
    (manifest : Option String) : Result :=
  match c.validate with
  | .error fault => s.fail "" fault.message
  | .ok _ =>
    if !s.tree.isDirectory s.directory root then s.fail "" ("Source root is not a directory: " ++ root)
    else
      match c.loadOptions s.tree s.directory with
      | .error fault => s.fail "" fault.message
      | .ok options =>
        let (renderer, notice) := rendererOf c kind manifest
        match (crew s c options root renderer).perform c.settings s.tree with
        | .error fault => s.fail notice fault.message
        | .ok session =>
          let report := RunReport.ofSession s.runName session
          let errors := notice ++ report.text
          match report.fault with
          | none => { tree := session.tree, errors }
          | some fault => { s with tree := session.tree }.fail errors fault.message

def execute (s : Surroundings) (line : CommandLine) : Result :=
  match LoadedConfig.load s.tree s.directory s.environment line.config with
  | .error failure => s.fail "" failure.message
  | .ok loaded =>
    match line.command with
    | .run none .. | .sources none => missingRoot s
    | .run (some root) overrides renderer manifest =>
      runPipeline s (loaded.config.withOverrides overrides) root renderer manifest
    | .sources (some root) => listSources s loaded.config root
    | .config => showConfig s loaded

end CommandLine

end DecodePipeline
