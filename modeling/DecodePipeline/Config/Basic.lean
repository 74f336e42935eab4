import DecodePipeline.Decimal.Natural
import DecodePipeline.Settings
import DecodePipeline.Text.Blank

/-!
The configuration of a run and its layers: a base, then the environment, then the command line, each of
which replaces only the values it gives. A configuration that is accepted gives settings that are accepted.
-/

namespace DecodePipeline

structure Config where
  decoder : String := "PccAppDecoder"
  optionsFile : Option String := none
  outputRoot : String := "dec_test"
  sourceExtension : String := "bin"
  workers : Nat := 1
  queueCapacity : Nat := 10
  transformTimeoutSeconds : Nat := 600
  shutdownTimeoutSeconds : Nat := 10
  retry : RetryPolicy := {}
  expectedFrames : Option Nat := some 10
  cleanupPatterns : List String := ["*.bin", "*.ofl", "*.opcl", "*.trc", "*.txt", "*.otl"]
  pollIntervalSeconds : Option Nat := none
  maxItems : Option Nat := none
  deriving Repr

namespace Config

/-- The first value that is refused decides the fault. -/
def validate (c : Config) : Except Fault Unit :=
  if c.workers = 0 then .error (.config "workers must be at least 1")
  else if c.queueCapacity = 0 then .error (.config "queue_capacity must be at least 1")
  else if c.retry.maxAttempts = 0 then .error (.config "retry_policy.max_attempts must be at least 1")
  else if c.decoder.isEmpty then .error (.config "decoder path is empty")
  else if c.pollIntervalSeconds = some 0 then .error (.config "poll_interval_seconds must be positive")
  else .ok ()

def mode (c : Config) : DiscoveryMode :=
  match c.pollIntervalSeconds with
  | some seconds => .poll (.ofSeconds seconds)
  | none => .batch

def settings (c : Config) : Settings :=
  { workers := c.workers
    queueCapacity := c.queueCapacity
    transformTimeout := .ofSeconds c.transformTimeoutSeconds
    shutdownTimeout := .ofSeconds c.shutdownTimeoutSeconds
    retry := c.retry
    mode := c.mode
    maxItems := c.maxItems
    expectedFrames := c.expectedFrames }

/-! ## The environment -/

abbrev Environment := String → Option String

def decoderVariable : String := "DECODEFLOW_DECODER"

def outputVariable : String := "DECODEFLOW_OUTPUT"

def workersVariable : String := "DECODEFLOW_WORKERS"

/-- A variable that is set to an empty text counts as unset. -/
def Environment.value? (env : Environment) (name : String) : Option String :=
  (env name).filter fun v => !v.isEmpty

/-- A number of workers, with white space around it and perhaps a plus sign in front. -/
def readWorkers? (text : String) : Option Nat :=
  Decimal.readBelow? Decimal.limit64 (Text.trimChars text.toList)

def withPaths (c : Config) (env : Environment) : Config :=
  { c with
    decoder := (env.value? decoderVariable).getD c.decoder
    outputRoot := (env.value? outputVariable).getD c.outputRoot }

/-- The configuration with the values that the environment gives, and whether all of them could be read.
Paths are taken even when the number of workers cannot be read. -/
def withEnvironment (c : Config) (env : Environment) : Config × Except Fault Unit :=
  let c := c.withPaths env
  match env.value? workersVariable with
  | none => (c, .ok ())
  | some text =>
    match readWorkers? text with
    | some workers => ({ c with workers }, .ok ())
    | none => (c, .error (.config (workersVariable ++ " is not a number: " ++ text)))

end Config

/-! ## The command line -/

structure Overrides where
  workers : Option Nat := none
  decoder : Option String := none
  output : Option String := none
  options : Option String := none
  poll : Option Nat := none
  deriving DecidableEq, Repr

def Config.withOverrides (c : Config) (o : Overrides) : Config :=
  { c with
    workers := o.workers.getD c.workers
    decoder := o.decoder.getD c.decoder
    outputRoot := o.output.getD c.outputRoot
    optionsFile := o.options <|> c.optionsFile
    pollIntervalSeconds := o.poll <|> c.pollIntervalSeconds }

end DecodePipeline
