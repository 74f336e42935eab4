import DecodePipeline.SystemError
import DecodePipeline.Time.Span

/-!
What can go wrong in a run: each cause with its message, its kind, and whether an attempt that ended with
it may be made again. Faults of one item stay with the item; discovery and supervision faults end the run.
-/

namespace DecodePipeline

inductive Fault where
  | discovery (reason : String)
  | spawn (program : String) (cause : SystemError)
  | exit (code : Option Int) (stderr : String)
  | outputs (dir : String) (expected found : Nat)
  | timedOut (limit : Span)
  | queueClosed
  | invalid (id reason : String)
  | refused (id reason : String)
  | config (reason : String)
  | cancelled
  | supervisor (reason : String)
  | system (cause : SystemError)
  deriving DecidableEq, Repr

namespace Fault

/-- How a process that failed went away: with a code, or by a signal. -/
def exitLabel : Option Int → String
  | some code => "exit code " ++ toString code
  | none => "signal"

def message : Fault → String
  | discovery reason => "Discovery failed: " ++ reason
  | spawn program cause => "Failed to spawn '" ++ program ++ "': " ++ cause.message
  | exit code stderr => "Process exited with " ++ exitLabel code ++ ": " ++ stderr
  | outputs dir expected found =>
    "Process produced " ++ toString found ++ " output file(s) in " ++ dir ++ ", expected " ++
      toString expected
  | timedOut limit => "Process timed out after " ++ limit.text
  | queueClosed => "Queue is closed"
  | invalid id reason => "Invalid artifact set '" ++ id ++ "': " ++ reason
  | refused id reason => "Renderer rejected '" ++ id ++ "': " ++ reason
  | config reason => "Configuration error: " ++ reason
  | cancelled => "Pipeline cancelled"
  | supervisor reason => "Supervisor error: " ++ reason
  | system cause => "IO error: " ++ cause.message

def kind : Fault → String
  | discovery _ => "discovery"
  | spawn _ _ => "process_spawn"
  | exit _ _ => "process_exit"
  | outputs _ _ _ => "missing_outputs"
  | timedOut _ => "process_timeout"
  | queueClosed => "queue_closed"
  | invalid _ _ => "validation"
  | refused _ _ => "render"
  | config _ => "config"
  | cancelled => "cancelled"
  | supervisor _ => "supervisor"
  | system _ => "io"

def isRetryable : Fault → Bool
  | spawn _ _ | exit _ _ | outputs _ _ _ | timedOut _ | system _ => true
  | _ => false

def isCancelled : Fault → Bool
  | cancelled => true
  | _ => false

end Fault

/-- Why a report outside the run failed: a fault, or a message with the system error behind it. -/
inductive Failure where
  | fault (cause : Fault)
  | context (message : String) (cause : Option SystemError)
  deriving DecidableEq, Repr

namespace Failure

def message : Failure → String
  | fault cause => cause.message
  | context message _ => message

def messages : Failure → List String
  | fault cause => [cause.message]
  | context message cause => message :: (cause.map SystemError.message).toList

/-- The messages from the outermost to the innermost, with colons between them. -/
def chain (messages : List String) : String :=
  ": ".intercalate messages

end Failure

end DecodePipeline
