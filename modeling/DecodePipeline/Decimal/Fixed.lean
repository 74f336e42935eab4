import DecodePipeline.Decimal.Shortest

/-!
Doubles with a fixed number of decimal places. The rounding is exact: it looks at the number that the
double stands for, and only a true tie goes to the even neighbour.
-/

namespace DecodePipeline.Decimal

/-- The natural number nearest to `num / den`; a tie goes to the even neighbour. -/
def roundDiv (num den : Nat) : Nat :=
  let below := num / den
  let rest := num % den
  if den < 2 * rest ∨ (2 * rest = den ∧ below % 2 = 1) then below + 1 else below

/-- A double of at least zero with so many places after the point. -/
def fixed (places : Nat) (x : Float) : String :=
  let i := (partsOfBits x.toBits).interval
  let units := roundDiv (i.mid * tenTo places) i.denominator
  let whole := digits (units / tenTo places)
  String.ofList (whole ++ '.' :: padded places (units % tenTo places))

end DecodePipeline.Decimal
