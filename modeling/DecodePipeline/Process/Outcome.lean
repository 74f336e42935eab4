import DecodePipeline.Fault
import DecodePipeline.Text.Blank

/-!
How a program's run ended, and what its caller makes of it: only an exit with code zero is a success.
-/

namespace DecodePipeline

inductive Exit where
  | exited (code : Nat)
  | signalled (signal : Nat)
  deriving DecidableEq, Repr

/-- A run to its end. It has no ending of its own if it took too long and was ended from outside. -/
structure Outcome where
  ending : Option Exit
  stderr : String
  deriving DecidableEq, Repr

namespace Exit

def code? : Exit → Option Nat
  | exited code => some code
  | signalled _ => none

end Exit

namespace Outcome

def code? (o : Outcome) : Option Nat :=
  o.ending.bind Exit.code?

def timedOut (o : Outcome) : Bool := o.ending.isNone

def success (o : Outcome) : Bool := o.code? = some 0

/-- The outcome as a result for a caller that allowed `limit`. -/
def toResult (limit : Span) (o : Outcome) : Except Fault Unit :=
  match o.ending with
  | none => .error (.timedOut limit)
  | some (.exited 0) => .ok ()
  | some ending => .error (.exit (ending.code?.map Int.ofNat) (Text.trim o.stderr))

end Outcome

end DecodePipeline
