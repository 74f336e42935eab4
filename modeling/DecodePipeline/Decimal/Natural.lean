/-!
Natural numbers in decimal: writing them, padded or not, and reading them back with a limit.
-/

namespace DecodePipeline.Decimal

def isDigit (c : Char) : Bool :=
  '0' ≤ c && c ≤ '9'

def digitValue (c : Char) : Nat :=
  c.toNat - '0'.toNat

def digits (n : Nat) : List Char :=
  Nat.toDigits 10 n

def padded (width n : Nat) : List Char :=
  List.replicate (width - (digits n).length) '0' ++ digits n

def value (cs : List Char) : Nat :=
  cs.foldl (fun acc c => acc * 10 + digitValue c) 0

def isNumeral (cs : List Char) : Bool :=
  !cs.isEmpty && cs.all isDigit

def read? (cs : List Char) : Option Nat :=
  if isNumeral cs then some (value cs) else none

/-- A digit string below `limit`, which may carry a plus sign. -/
def readBelow? (limit : Nat) (cs : List Char) : Option Nat := do
  let n ← read? (match cs with
    | '+' :: rest => rest
    | _ => cs)
  if n < limit then some n else none

def twoTo (n : Nat) : Nat :=
  Nat.pow 2 n

def tenTo (n : Nat) : Nat :=
  Nat.pow 10 n

/-- What a word of 32 bits can hold is below this. -/
def limit32 : Nat := 0x100000000

/-- What a word of 64 bits can hold is below this. -/
def limit64 : Nat := 0x10000000000000000

end DecodePipeline.Decimal
