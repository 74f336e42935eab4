import DecodePipeline.Decimal.Fixed
import DecodePipeline.Run.Session

/-!
The report on a run that has ended: its counters, the items that were given up, and the fault that ended
it, if one did.
-/

namespace DecodePipeline

structure RunReport where
  name : String
  summary : Summary
  fault : Option Fault
  deriving Repr

namespace RunReport

/-- The report on the run of a session. A run that has not ended is summed up as it stands. -/
def ofSession (name : String) (s : Session) : RunReport :=
  let now := s.run.hub.stats.summary (.ofMillis s.run.hub.now) s.run.hub.cancelled
  { name, summary := s.run.supervisor.summary.getD now, fault := s.run.supervisor.firstFault }

def status (r : RunReport) : String :=
  if r.fault.isSome then "failed" else if r.summary.cancelled then "drained" else "completed"

/-- Milliseconds as seconds with one decimal place. -/
def secondsText (ms : Nat) : String :=
  Decimal.fixed 1 ((UInt64.ofNat ms).toFloat / 1000.0) ++ "s"

def countLine (label : String) (n : Nat) : String := "  " ++ label ++ toString n ++ "\n"

def failureLine (f : FailedItem) : String :=
  "  " ++ f.id ++ " (attempts: " ++ toString f.attempts ++ ", " ++ f.kind ++ "): " ++ f.error ++ "\n"

def text (r : RunReport) : String :=
  let s := r.summary
  let failures := if s.failures.isEmpty then "" else
    "\nFailed items:\n" ++ String.join (s.failures.map failureLine)
  "\n[Run " ++ r.name ++ " " ++ r.status ++ "]\n" ++
    countLine "Discovered:  " s.discovered ++
    countLine "Transformed: " s.transformed ++
    countLine "Failed:      " s.failed ++
    countLine "Consumed:    " s.consumed ++
    countLine "Rejected:    " s.rejected ++
    (if s.abandoned = 0 then "" else countLine "Abandoned:   " s.abandoned) ++
    "  Elapsed:     " ++ secondsText s.elapsedMs ++ "\n" ++ failures

end RunReport

end DecodePipeline
