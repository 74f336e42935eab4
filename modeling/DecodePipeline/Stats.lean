import DecodePipeline.Fault
import DecodePipeline.WorkItem

/-!
Counters of a run and the summary that is made of them.
-/

namespace DecodePipeline

/-- An item that was given up, after how many attempts and why. -/
structure FailedItem where
  id : String
  attempts : Nat
  kind : String
  error : String
  deriving DecidableEq, Repr

structure Stats where
  discovered : Nat := 0
  transformed : Nat := 0
  failed : Nat := 0
  abandoned : Nat := 0
  consumed : Nat := 0
  rejected : Nat := 0
  failures : List FailedItem := []
  deriving DecidableEq, Repr

namespace Stats

def addDiscovered (s : Stats) : Stats := { s with discovered := s.discovered + 1 }

def addTransformed (s : Stats) : Stats := { s with transformed := s.transformed + 1 }

def addAbandoned (s : Stats) : Stats := { s with abandoned := s.abandoned + 1 }

def addConsumed (s : Stats) : Stats := { s with consumed := s.consumed + 1 }

def addRejected (s : Stats) : Stats := { s with rejected := s.rejected + 1 }

def addFailed (s : Stats) (item : WorkItem) (fault : Fault) : Stats :=
  { s with
    failed := s.failed + 1
    failures := s.failures ++ [⟨item.id, item.attempt, fault.kind, fault.message⟩] }

end Stats

/-- The counters at the end of a run, with the failures in order of their ids. -/
structure Summary where
  discovered : Nat
  transformed : Nat
  failed : Nat
  abandoned : Nat
  consumed : Nat
  rejected : Nat
  failures : List FailedItem
  elapsedMs : Nat
  cancelled : Bool
  deriving DecidableEq, Repr

def Stats.summary (s : Stats) (elapsed : Span) (cancelled : Bool) : Summary :=
  { discovered := s.discovered
    transformed := s.transformed
    failed := s.failed
    abandoned := s.abandoned
    consumed := s.consumed
    rejected := s.rejected
    failures := s.failures.mergeSort fun a b => decide (a.id ≤ b.id)
    elapsedMs := elapsed.millis % Decimal.limit64
    cancelled }

/-- Items published that reached no outcome. -/
def Summary.unaccounted (s : Summary) : Nat :=
  s.discovered - (s.transformed + s.failed + s.abandoned)

end DecodePipeline
