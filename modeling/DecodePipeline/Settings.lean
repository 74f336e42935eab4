import DecodePipeline.Fault
import DecodePipeline.Retry

/-!
The tunables of one run and the values that no run can work with.
-/

namespace DecodePipeline

inductive DiscoveryMode where
  | batch
  | poll (interval : Span)
  deriving DecidableEq, Repr

structure Settings where
  workers : Nat := 1
  queueCapacity : Nat := 10
  transformTimeout : Span := .ofSeconds 600
  shutdownTimeout : Span := .ofSeconds 10
  retry : RetryPolicy := {}
  mode : DiscoveryMode := .batch
  maxItems : Option Nat := none
  expectedFrames : Option Nat := none
  deriving Repr

namespace Settings

/-- The first setting that is refused decides the fault. -/
def validate (s : Settings) : Except Fault Unit :=
  if s.workers = 0 then .error (.config "workers must be at least 1")
  else if s.queueCapacity = 0 then .error (.config "queue_capacity must be at least 1")
  else if s.retry.maxAttempts = 0 then .error (.config "retry_policy.max_attempts must be at least 1")
  else if s.mode = .poll .zero then .error (.config "poll interval must be positive")
  else .ok ()

end Settings

end DecodePipeline
