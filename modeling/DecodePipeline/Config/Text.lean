import DecodePipeline.Config.Load
import DecodePipeline.Decimal.Shortest

/-!
A configuration as it is shown to people, with a warning if no run can work with it.
-/

namespace DecodePipeline

namespace Config

def line (label value : String) : String := "  " ++ label ++ value ++ "\n"

def decoderText (c : Config) : String :=
  "Decoder:\n" ++ line "Executable:  " c.decoder ++
    line "Options:     " (c.optionsFile.getD "(none)") ++
    line "Output root: " c.outputRoot ++
    line "Sources:     *." c.sourceExtension

def discoveryText (c : Config) : String :=
  match c.pollIntervalSeconds with
  | some seconds => "poll every " ++ toString seconds ++ "s"
  | none => "batch"

def pipelineText (c : Config) : String :=
  "Pipeline:\n" ++ line "Workers:           " (toString c.workers) ++
    line "Queue capacity:    " (toString c.queueCapacity) ++
    line "Transform timeout: " (toString c.transformTimeoutSeconds ++ "s") ++
    line "Shutdown timeout:  " (toString c.shutdownTimeoutSeconds ++ "s") ++
    line "Expected frames:   " ((c.expectedFrames.map toString).getD "any") ++
    line "Discovery:         " c.discoveryText ++
    ((c.maxItems.map fun n => line "Max items:         " (toString n)).getD "")

def retryText (p : RetryPolicy) : String :=
  "Retry policy:\n" ++ line "Max attempts:  " (toString p.maxAttempts) ++
    line "Initial delay: " (toString p.initialDelayMs ++ "ms") ++
    line "Max delay:     " (toString p.maxDelayMs ++ "ms") ++
    line "Multiplier:    " (Decimal.positional p.multiplier)

def warning (c : Config) : String :=
  match c.validate with
  | .ok _ => ""
  | .error fault => "\nWarning: " ++ fault.message ++ "\n"

end Config

def LoadedConfig.text (l : LoadedConfig) : String :=
  let c := l.config
  "decodeflow configuration\n\nConfig file: " ++ l.file.getD "(none - using defaults)" ++ "\n\n" ++
    c.decoderText ++ "\n" ++ c.pipelineText ++ "\n" ++ Config.retryText c.retry ++
    "\nCleanup patterns: " ++ " ".intercalate c.cleanupPatterns ++ "\n" ++ c.warning

end DecodePipeline
