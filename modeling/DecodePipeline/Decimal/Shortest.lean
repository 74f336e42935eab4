import DecodePipeline.Decimal.Natural

/-!
The fewest decimal digits that read back as the same double, and double precision numbers from decimals.
The digits are chosen in exact arithmetic on the interval of reals that round to the number.
-/

namespace DecodePipeline.Decimal

/-- A positive double as `mantissa · 2 ^ exponent`, and whether the gap below it is half the gap above. -/
structure Parts where
  mantissa : Nat
  exponent : Int
  narrowBelow : Bool

def partsOfBits (bits : UInt64) : Parts :=
  let biased := ((bits >>> 52) &&& 0x7FF).toNat
  let fraction := (bits &&& 0xFFFFFFFFFFFFF).toNat
  if biased = 0 then ⟨fraction, -1074, false⟩
  else ⟨fraction + twoTo 52, biased - 1075, fraction = 0 && 1 < biased⟩

/-- Four times the number and the two ends of its rounding interval, over a common denominator. -/
structure Interval where
  low : Nat
  mid : Nat
  high : Nat
  denominator : Nat
  closed : Bool

def Parts.interval (p : Parts) : Interval :=
  let scale := if 2 ≤ p.exponent then twoTo (p.exponent - 2).toNat else 1
  let denominator := if 2 ≤ p.exponent then 1 else twoTo (2 - p.exponent).toNat
  { low := (4 * p.mantissa - if p.narrowBelow then 1 else 2) * scale
    mid := 4 * p.mantissa * scale
    high := (4 * p.mantissa + 2) * scale
    denominator
    closed := p.mantissa % 2 = 0 }

/-- The rational `num / den` is below `10 ^ e`. -/
def belowPower (num den : Nat) (e : Int) : Bool :=
  if 0 ≤ e then num < den * tenTo e.toNat else num * tenTo e.natAbs < den

/-- The least power of ten above `num / den`, counted up from `e`. -/
def powerAbove (num den : Nat) : Nat → Int → Int
  | 0, e => e
  | fuel + 1, e => if belowPower num den e then e else powerAbove num den fuel (e + 1)

/-- On the grid of multiples of `10 ^ e`: the multiple nearest to the number among those of its two
neighbours that lie in the interval. -/
def onGrid? (i : Interval) (e : Int) : Option Nat :=
  let up := if 0 ≤ e then 1 else tenTo e.natAbs
  let unit := i.denominator * (if 0 ≤ e then tenTo e.toNat else 1)
  let below := i.mid * up / unit
  let above := below + 1
  let inside (n : Nat) : Bool :=
    let x := n * unit
    let low := i.low * up
    let high := i.high * up
    if i.closed then low ≤ x && x ≤ high else low < x && x < high
  let downDistance := i.mid * up - below * unit
  let upDistance := above * unit - i.mid * up
  match inside below && 0 < below, inside above with
  | false, false => none
  | true, false => some below
  | false, true => some above
  | true, true =>
    if downDistance < upDistance then some below
    else if upDistance < downDistance then some above
    else if below % 2 = 0 then some below else some above

/-- The first grid with a hit, from one digit on. -/
def firstGrid (i : Interval) (power : Int) : Nat → Nat → Nat × Int
  | 0, _ => (0, 0)
  | fuel + 1, places =>
    match onGrid? i (power - places) with
    | some n => (n, power - places)
    | none => firstGrid i power fuel (places + 1)

/-- Moves zeros at the end of the digits into the exponent. -/
def normalised : Nat → Nat → Int → Nat × Int
  | 0, n, e => (n, e)
  | fuel + 1, n, e => if n % 10 = 0 ∧ 0 < n then normalised fuel (n / 10) (e + 1) else (n, e)

/-- Digits and power of ten of a positive finite double. -/
def shortest (bits : UInt64) : Nat × Int :=
  let parts := partsOfBits (bits &&& 0x7FFFFFFFFFFFFFFF)
  if parts.mantissa = 0 then (0, 0)
  else
    let i := parts.interval
    let power := powerAbove i.mid i.denominator 700 (-330)
    let (n, e) := firstGrid i power 18 1
    normalised 20 n e

def isNegative (x : Float) : Bool :=
  (x.toBits >>> 63) = 1

/-- The number without an exponent: sign, whole part, and a fraction only where there is one. -/
def positional (x : Float) : String :=
  if x.isNaN then "NaN"
  else
    let sign := if isNegative x then "-" else ""
    if x.isInf then sign ++ "inf"
    else
      let (n, e) := shortest x.toBits
      let ds := digits n
      let body :=
        if 0 ≤ e then ds ++ (if n = 0 then [] else List.replicate e.toNat '0')
        else if e.natAbs < ds.length then
          ds.take (ds.length - e.natAbs) ++ '.' :: ds.drop (ds.length - e.natAbs)
        else '0' :: '.' :: List.replicate (e.natAbs - ds.length) '0' ++ ds
      sign ++ String.ofList body

/-- The double nearest to `± mantissa · 10 ^ exponent`. -/
def toFloat (negative : Bool) (mantissa : Nat) (exponent : Int) : Float :=
  let size := (digits mantissa).length
  let x :=
    if mantissa = 0 ∨ exponent + size < -400 then 0.0
    else if 400 < exponent + size then 1.0 / 0.0
    else if 0 ≤ exponent then Float.ofScientific mantissa false exponent.toNat
    else Float.ofScientific mantissa true exponent.natAbs
  if negative then -x else x

end DecodePipeline.Decimal
