import DecodePipeline.Decimal.Natural
import DecodePipeline.Time.Span

/-!
When a failed attempt is made again, and after what delay: the first delay times a power of the
multiplier, with a cap.
-/

namespace DecodePipeline

structure RetryPolicy where
  maxAttempts : Nat := 3
  initialDelayMs : Nat := 500
  maxDelayMs : Nat := 10000
  multiplier : Float := 2.0
  deriving Repr

namespace RetryPolicy

def immediate (n : Nat) : RetryPolicy := ⟨n, 0, 0, 1.0⟩

/-- `result · base ^ n` by repeated squaring. -/
def powerTimes : Nat → Float → Float → Nat → Float
  | 0, result, _, _ => result
  | fuel + 1, result, base, n =>
    let result := if n % 2 = 1 then result * base else result
    if n / 2 = 0 then result else powerTimes fuel result (base * base) (n / 2)

def power (base : Float) (n : Int) : Float :=
  let p := powerTimes 64 1.0 base n.natAbs
  if n < 0 then 1.0 / p else p

/-- The smaller number; what is not a number loses. -/
def lesser (x y : Float) : Float :=
  if x.isNaN then y else if y.isNaN then x else if y < x then y else x

/-- The exponent after attempt `n`, one less, as a signed word of 32 bits. -/
def exponent (n : Nat) : Int :=
  ((n : Int) - 1).bmod Decimal.limit32

/-- Milliseconds between the failed attempt `n`, counted from 1, and the next one. -/
def delayMs (p : RetryPolicy) (n : Nat) : Nat :=
  if n ≤ 1 then min p.initialDelayMs p.maxDelayMs
  else
    let delay := (UInt64.ofNat p.initialDelayMs).toFloat * power p.multiplier (exponent n)
    (lesser delay (UInt64.ofNat p.maxDelayMs).toFloat).toUInt64.toNat

def shouldRetry (p : RetryPolicy) (n : Nat) : Bool :=
  n < p.maxAttempts

end RetryPolicy

end DecodePipeline
