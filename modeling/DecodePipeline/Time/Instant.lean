import DecodePipeline.Decimal.Natural
import DecodePipeline.Text.Blank
import DecodePipeline.Time.Calendar

/-!
Points in time in UTC, to the nanosecond, with leap seconds; their text in the form of RFC 3339, and a
reader that accepts that form and several looser ones. Reading what was written gives the same point.
-/

namespace DecodePipeline

/-- A reading of calendar and clock. Second 60 is a leap second. -/
structure Clock where
  date : Day
  hour : Nat
  minute : Nat
  second : Nat
  nano : Nat
  deriving DecidableEq, Repr

namespace Clock

def Valid (c : Clock) : Prop :=
  c.date.Valid ∧ c.hour < 24 ∧ c.minute < 60 ∧ c.second ≤ 60 ∧ c.nano < 1000000000

instance (c : Clock) : Decidable c.Valid := by
  unfold Valid; infer_instance

/-- The same clock `minutes` later, for less than a day in either direction. -/
def shift (c : Clock) (minutes : Int) : Clock :=
  let total := (c.hour * 60 + c.minute : Int) + minutes
  let time := (total % 1440).toNat
  let date := if total < 0 then c.date.previous else if 1440 ≤ total then c.date.next else c.date
  { c with date, hour := time / 60, minute := time % 60 }

end Clock

structure Instant where
  clock : Clock
  valid : clock.Valid
  deriving DecidableEq, Repr

namespace Instant

def ofClock? (c : Clock) : Option Instant :=
  if h : c.Valid then some ⟨c, h⟩ else none

/-- The start of the year 2024, for runs whose clock starts at zero. -/
def epoch : Instant := ⟨⟨⟨2024, 1, 1⟩, 0, 0, 0, 0⟩, by decide⟩

/-! ## Writing -/

/-- Four digits; any other year has a sign and at least four digits. -/
def yearText (year : Int) : List Char :=
  if 0 ≤ year ∧ year ≤ 9999 then Decimal.padded 4 year.toNat
  else (if year < 0 then '-' else '+') :: Decimal.padded 4 year.natAbs

/-- No fraction, or three, six or nine digits, whichever is the fewest that lose nothing. -/
def fractionText (nano : Nat) : List Char :=
  if nano = 0 then []
  else if nano % 1000000 = 0 then '.' :: Decimal.padded 3 (nano / 1000000)
  else if nano % 1000 = 0 then '.' :: Decimal.padded 6 (nano / 1000)
  else '.' :: Decimal.padded 9 nano

def textChars (t : Instant) : List Char :=
  let c := t.clock
  yearText c.date.year ++ '-' :: Decimal.padded 2 c.date.month ++ '-' :: Decimal.padded 2 c.date.day ++
    'T' :: Decimal.padded 2 c.hour ++ ':' :: Decimal.padded 2 c.minute ++
    ':' :: Decimal.padded 2 c.second ++ fractionText c.nano ++ ['Z']

def text (t : Instant) : String :=
  String.ofList t.textChars

/-! ## Reading -/

/-- One to `most` digits after white space: their value and the rest. -/
def number? (most : Nat) (cs : List Char) : Option (Nat × List Char) :=
  let digits := (cs.take most).takeWhile Decimal.isDigit
  if digits = [] then none else some (Decimal.value digits, cs.drop digits.length)

def field? (cs : List Char) : Option (Nat × List Char) :=
  number? 2 (Text.trimLeft cs)

/-- A year: up to four digits, or a sign and any number of them. -/
def year? (cs : List Char) : Option (Int × List Char) :=
  match Text.trimLeft cs with
  | '-' :: rest => (number? rest.length rest).map fun (n, r) => (-(n : Int), r)
  | '+' :: rest => (number? rest.length rest).map fun (n, r) => ((n : Int), r)
  | rest => (number? 4 rest).map fun (n, r) => ((n : Int), r)

/-- A separator after white space. -/
def separator? (c : Char) (cs : List Char) : Option (List Char) :=
  match Text.trimLeft cs with
  | d :: rest => if d = c then some rest else none
  | [] => none

def date? (cs : List Char) : Option (Day × List Char) := do
  let (year, cs) ← year? cs
  let cs ← separator? '-' cs
  let (month, cs) ← field? cs
  let cs ← separator? '-' cs
  let (day, cs) ← field? cs
  return (⟨year, month, day⟩, cs)

/-- Nanoseconds after an optional point; digits beyond the ninth are cut. -/
def fraction? (cs : List Char) : Option (Nat × List Char) :=
  match cs with
  | '.' :: rest =>
    let digits := rest.takeWhile Decimal.isDigit
    if digits = [] then none
    else
      let kept := digits.take 9
      some (Decimal.value kept * Decimal.tenTo (9 - kept.length), rest.drop digits.length)
  | _ => some (0, cs)

def time? (cs : List Char) : Option ((Nat × Nat × Nat × Nat) × List Char) := do
  let (hour, cs) ← field? cs
  let cs ← separator? ':' cs
  let (minute, cs) ← field? cs
  let cs ← separator? ':' cs
  let (second, cs) ← field? cs
  let (nano, cs) ← fraction? cs
  return ((hour, minute, second, nano), cs)

def twoDigits? (cs : List Char) : Option (Nat × List Char) :=
  match cs with
  | a :: b :: rest =>
    if Decimal.isDigit a ∧ Decimal.isDigit b then
      some (Decimal.digitValue a * 10 + Decimal.digitValue b, rest)
    else none
  | _ => none

/-- Hours and minutes after the sign, with any colons and white space between them. -/
def offsetMinutes? (cs : List Char) : Option (Nat × List Char) := do
  let (hours, cs) ← twoDigits? cs
  let (minutes, cs) ← twoDigits? (cs.dropWhile fun c => c = ':' || Text.isBlank c)
  if 60 ≤ minutes ∨ 24 ≤ hours then none else return (hours * 60 + minutes, cs)

/-- The distance from UTC in minutes: `Z`, `UTC`, or a sign and a distance. -/
def offset? (cs : List Char) : Option (Int × List Char) :=
  match cs with
  | 'Z' :: rest | 'z' :: rest => some (0, rest)
  | '+' :: rest => (offsetMinutes? rest).map fun (n, r) => ((n : Int), r)
  | '-' :: rest | '−' :: rest => (offsetMinutes? rest).map fun (n, r) => (-(n : Int), r)
  | a :: b :: c :: rest =>
    if [a, b, c].map Char.toUpper = ['U', 'T', 'C'] then some (0, rest) else none
  | _ => none

def readChars? (cs : List Char) : Option Instant := do
  let (date, cs) ← date? cs
  let cs ← match cs with
    | 'T' :: rest | 't' :: rest | ' ' :: rest => some rest
    | _ => none
  let ((hour, minute, second, nano), cs) ← time? cs
  let (minutes, cs) ← offset? (Text.trimLeft cs)
  if ¬(Text.trimLeft cs = []) then none
  else
    let there ← ofClock? ⟨date, hour, minute, second, nano⟩
    ofClock? (there.clock.shift (-minutes))

/-- The point that a text names, in UTC. -/
def read? (s : String) : Option Instant :=
  readChars? s.toList

end Instant

end DecodePipeline
