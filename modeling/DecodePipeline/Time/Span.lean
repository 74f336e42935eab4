import DecodePipeline.Decimal.Natural

/-!
Lengths of time, kept in nanoseconds, and their short text: the largest unit that leaves a whole part,
and no more fraction digits than the value needs.
-/

namespace DecodePipeline

structure Span where
  nanos : Nat
  deriving DecidableEq, Repr

namespace Span

def zero : Span := ⟨0⟩

def ofMillis (ms : Nat) : Span := ⟨ms * 1000000⟩

def ofSeconds (s : Nat) : Span := ⟨s * 1000000000⟩

def millis (d : Span) : Nat := d.nanos / 1000000

def seconds (d : Span) : Nat := d.nanos / 1000000000

/-- A whole number of units and a remainder of `places` decimal digits, without trailing zeros. -/
def unitText (unit : String) (places scale nanos : Nat) : String :=
  let fraction := (Decimal.padded places (nanos % scale)).reverse.dropWhile (· = '0')
  let digits := Decimal.digits (nanos / scale)
  let point := if nanos % scale = 0 then [] else '.' :: fraction.reverse
  String.ofList (digits ++ point) ++ unit

def text (d : Span) : String :=
  if 1000000000 ≤ d.nanos then unitText "s" 9 1000000000 d.nanos
  else if 1000000 ≤ d.nanos then unitText "ms" 6 1000000 d.nanos
  else if 1000 ≤ d.nanos then unitText "µs" 3 1000 d.nanos
  else unitText "ns" 0 1 d.nanos

end Span

end DecodePipeline
