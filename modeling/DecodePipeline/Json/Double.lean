import DecodePipeline.Decimal.Shortest
import DecodePipeline.Json.Value

/-!
Double precision numbers in JSON. Reading takes the first digits that fit 64 bits and scales them by
powers of ten in double arithmetic; writing gives the shortest digits that read back.
-/

namespace DecodePipeline.Json

/-- Infinities and what is not a number are written as null. -/
def ofFloat (x : Float) : Json :=
  if x.isNaN || x.isInf then null
  else
    let (n, e) := Decimal.shortest x.toBits
    num (.decimal (Decimal.isNegative x) n e)

/-- Cuts digits at the end until 64 bits hold the rest. -/
def fit64 : Nat → Nat → Int → Nat × Int
  | 0, n, e => (n, e)
  | fuel + 1, n, e => if n < Decimal.limit64 then (n, e) else fit64 fuel (n / 10) (e + 1)

/-- `significand · 10 ^ exponent` in doubles; too large a result is refused. -/
def scaled? : Nat → Float → Int → Option Float
  | 0, _, _ => none
  | fuel + 1, f, e =>
    if e.natAbs ≤ 308 then
      let power := Float.ofScientific 1 false e.natAbs
      if 0 ≤ e then
        let x := f * power
        if x.isInf then none else some x
      else some (f / power)
    else if f == 0.0 then some f
    else if 0 ≤ e then none
    else scaled? fuel (f / 1e308) (e + 308)

def Number.toFloat? : Number → Option Float
  | .int i =>
    if i.natAbs < Decimal.limit64 then
      let x := (UInt64.ofNat i.natAbs).toFloat
      some (if i < 0 then -x else x)
    else
      let (n, e) := fit64 (Decimal.digits i.natAbs).length i.natAbs 0
      (scaled? (e.natAbs + 2) (UInt64.ofNat n).toFloat e).map fun x => if i < 0 then -x else x
  | .decimal negative mantissa exponent =>
    let (n, e) := fit64 (Decimal.digits mantissa).length mantissa exponent
    (scaled? (e.natAbs + 2) (UInt64.ofNat n).toFloat e).map fun x => if negative then -x else x

end DecodePipeline.Json
