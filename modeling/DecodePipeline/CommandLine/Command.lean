import DecodePipeline.CommandLine.Arguments
import DecodePipeline.Config.Basic

/-!
The commands of the program and the command line that names one. The configuration file may be given
before the command or after it; after it counts.
-/

namespace DecodePipeline

namespace CommandLine

inductive RendererKind where
  | log
  | jsonl
  deriving DecidableEq, Repr

namespace RendererKind

def word : RendererKind → String
  | log => "log"
  | jsonl => "jsonl"

def all : List RendererKind := [log, jsonl]

def ofWord (s : String) : RendererKind :=
  (all.find? (·.word = s)).getD log

end RendererKind

inductive Command where
  | run (sourceRoot : Option String) (overrides : Overrides) (renderer : RendererKind)
    (manifest : Option String)
  | sources (sourceRoot : Option String)
  | config
  deriving DecidableEq, Repr

end CommandLine

/-- A command line that could be read: the configuration file and the command. -/
structure CommandLine where
  config : Option String
  command : CommandLine.Command
  deriving DecidableEq, Repr

namespace CommandLine

def pathOption (name : String) (short : Option Char) : Parameter := ⟨name, short, .takes .path⟩

def numberOption (name : String) (short : Option Char) : Parameter := ⟨name, short, .takes .number⟩

def helpOption : Parameter := ⟨"help", some 'h', .help⟩

def versionOption : Parameter := ⟨"version", some 'V', .version⟩

def configOption : Parameter := pathOption "config" none

def sourceRoot : Parameter := pathOption "SOURCE_ROOT" none

def helpCommand : String := "help"

/-- What may be given before a command. -/
def topGrammar : Grammar :=
  { options := [configOption, helpOption, versionOption]
    positionals := []
    commands := ["run", "sources", "config", helpCommand] }

def runGrammar : Grammar :=
  { options := [numberOption "workers" (some 'w'), pathOption "decoder" none, pathOption "output" (some 'o'),
      pathOption "options" none, numberOption "poll" none,
      ⟨"renderer", none, .takes (.choice (RendererKind.all.map RendererKind.word))⟩,
      pathOption "manifest" none, configOption, helpOption]
    positionals := [sourceRoot]
    commands := [] }

def sourcesGrammar : Grammar :=
  { options := [configOption, helpOption], positionals := [sourceRoot], commands := [] }

def configGrammar : Grammar :=
  { options := [configOption, helpOption], positionals := [], commands := [] }

/-- What may be given after a command. -/
def grammarOf : String → Grammar
  | "run" => runGrammar
  | "sources" => sourcesGrammar
  | _ => configGrammar

def helpOn : List String → Usage
  | [] => .help
  | [name] => if topGrammar.commands.contains name then .help else .unknownCommand
  | _ => .unknownCommand

def number? (vs : Values) (name : String) : Option Nat :=
  (vs.get? name).bind fun text => Decimal.readBelow? Decimal.limit64 text.toList

def commandOf (name : String) (vs : Values) : Command :=
  match name with
  | "run" =>
    .run (vs.get? sourceRoot.name)
      { workers := number? vs "workers", decoder := vs.get? "decoder", output := vs.get? "output",
        options := vs.get? "options", poll := number? vs "poll" }
      (((vs.get? "renderer").map RendererKind.ofWord).getD .log) (vs.get? "manifest")
  | "sources" => .sources (vs.get? sourceRoot.name)
  | _ => .config

def read (words : List String) : Except Usage CommandLine := do
  let (top, command) ← Reading.run topGrammar {} words
  match command with
  | none =>
    let top ← top.settle
    if top.values.isEmpty then .error .nothingGiven else .error .missingCommand
  | some (name, rest) =>
    if name = helpCommand then .error (helpOn rest)
    else
      let (inner, _) ← Reading.run (grammarOf name) {} rest
      let inner ← inner.settle
      let top ← top.settle
      let config := inner.values.get? configOption.name <|> top.values.get? configOption.name
      return ⟨config, commandOf name inner.values⟩

end CommandLine

end DecodePipeline
