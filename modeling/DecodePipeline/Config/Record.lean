import DecodePipeline.Config.Basic
import DecodePipeline.Json.Double
import DecodePipeline.Json.Record

/-!
Configurations as records of a data format. What a format must offer is small: it reads plain values and
takes records apart. A member that is absent keeps its default value, an unknown member is ignored, and a
value of the wrong kind is refused.
-/

namespace DecodePipeline

/-- How the values `ν` of a data format are read. A record is taken apart by the names of its members; a
value that claims to be nothing and is not has no answer to `isNull?`. -/
structure Format (ν : Type) where
  text? : ν → Option String
  natBelow? : Nat → ν → Option Nat
  float? : ν → Option Float
  isNull? : ν → Option Bool
  items? : ν → Option (List ν)
  record? : List String → ν → Option (List (Option ν))

namespace Format

variable {ν α : Type}

def orElse (default : α) (read : ν → Option α) : Option ν → Option α
  | none => some default
  | some v => read v

def nullable (f : Format ν) (read : ν → Option α) (v : ν) : Option (Option α) := do
  if ← f.isNull? v then return none else return some (← read v)

def texts? (f : Format ν) (v : ν) : Option (List String) :=
  (f.items? v).bind fun items => items.mapM f.text?

def word? (f : Format ν) (v : ν) : Option Nat :=
  f.natBelow? Decimal.limit64 v

end Format

namespace RetryPolicy

def members : List String := ["max_attempts", "initial_delay_ms", "max_delay_ms", "backoff_multiplier"]

def ofRecord? {ν : Type} (f : Format ν) (v : ν) : Option RetryPolicy := do
  let d : RetryPolicy := {}
  match ← f.record? members v with
  | [attempts, initial, most, multiplier] =>
    return {
      maxAttempts := ← Format.orElse d.maxAttempts (f.natBelow? Decimal.limit32) attempts
      initialDelayMs := ← Format.orElse d.initialDelayMs f.word? initial
      maxDelayMs := ← Format.orElse d.maxDelayMs f.word? most
      multiplier := ← Format.orElse d.multiplier f.float? multiplier }
  | _ => none

def toJson (p : RetryPolicy) : Json :=
  .obj [("max_attempts", .ofNat p.maxAttempts), ("initial_delay_ms", .ofNat p.initialDelayMs),
    ("max_delay_ms", .ofNat p.maxDelayMs), ("backoff_multiplier", .ofFloat p.multiplier)]

end RetryPolicy

namespace Config

def members : List String :=
  ["decoder", "options_file", "output_root", "source_extension", "workers", "queue_capacity",
    "transform_timeout_seconds", "shutdown_timeout_seconds", "retry_policy", "expected_frames",
    "cleanup_patterns", "poll_interval_seconds", "max_items"]

def ofRecord? {ν : Type} (f : Format ν) (v : ν) : Option Config := do
  let d : Config := {}
  match ← f.record? members v with
  | [decoder, options, output, suffix, workers, capacity, transform, shutdown, retry, frames, patterns,
      poll, most] =>
    return {
      decoder := ← Format.orElse d.decoder f.text? decoder
      optionsFile := ← Format.orElse d.optionsFile (f.nullable f.text?) options
      outputRoot := ← Format.orElse d.outputRoot f.text? output
      sourceExtension := ← Format.orElse d.sourceExtension f.text? suffix
      workers := ← Format.orElse d.workers f.word? workers
      queueCapacity := ← Format.orElse d.queueCapacity f.word? capacity
      transformTimeoutSeconds := ← Format.orElse d.transformTimeoutSeconds f.word? transform
      shutdownTimeoutSeconds := ← Format.orElse d.shutdownTimeoutSeconds f.word? shutdown
      retry := ← Format.orElse d.retry (RetryPolicy.ofRecord? f) retry
      expectedFrames := ← Format.orElse d.expectedFrames (f.nullable f.word?) frames
      cleanupPatterns := ← Format.orElse d.cleanupPatterns f.texts? patterns
      pollIntervalSeconds := ← Format.orElse d.pollIntervalSeconds (f.nullable f.word?) poll
      maxItems := ← Format.orElse d.maxItems (f.nullable f.word?) most }
  | _ => none

def toJson (c : Config) : Json :=
  .obj [("decoder", .str c.decoder), ("options_file", .ofOption .str c.optionsFile),
    ("output_root", .str c.outputRoot), ("source_extension", .str c.sourceExtension),
    ("workers", .ofNat c.workers), ("queue_capacity", .ofNat c.queueCapacity),
    ("transform_timeout_seconds", .ofNat c.transformTimeoutSeconds),
    ("shutdown_timeout_seconds", .ofNat c.shutdownTimeoutSeconds),
    ("retry_policy", c.retry.toJson),
    ("expected_frames", .ofOption .ofNat c.expectedFrames),
    ("cleanup_patterns", .strings c.cleanupPatterns),
    ("poll_interval_seconds", .ofOption .ofNat c.pollIntervalSeconds),
    ("max_items", .ofOption .ofNat c.maxItems)]

end Config

namespace Json

/-- The members by name; an array lists them in order and may end early. -/
def openRecord? (names : List String) : Json → Option (List (Option Json))
  | arr items =>
    if items.length ≤ names.length then
      some (items.map some ++ List.replicate (names.length - items.length) none)
    else none
  | j => record? names j

def isNull? : Json → Option Bool
  | null => some true
  | _ => some false

def float? : Json → Option Float
  | num n => n.toFloat?
  | _ => none

def format : Format Json := ⟨text?, natBelow?, float?, isNull?, items?, openRecord?⟩

end Json

end DecodePipeline
