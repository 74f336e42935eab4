import DecodePipeline.Decimal.Natural
import DecodePipeline.Json.Value

/-!
Reading JSON text. Every reader takes the text that is left and gives back what it read with the rest;
the fuel bounds the nesting and the number of elements and is taken from the length of the text.
-/

namespace DecodePipeline.Json

def isBlank (c : Char) : Bool :=
  c = ' ' || c = '\n' || c = '\t' || c = '\r'

def skipBlanks (cs : List Char) : List Char :=
  cs.dropWhile isBlank

def hexValue? (c : Char) : Option Nat :=
  let n := c.toNat
  if '0' ≤ c ∧ c ≤ '9' then some (n - '0'.toNat)
  else if 'a' ≤ c ∧ c ≤ 'f' then some (n - 'a'.toNat + 10)
  else if 'A' ≤ c ∧ c ≤ 'F' then some (n - 'A'.toNat + 10)
  else none

def hexUnit? : List Char → Option (Nat × List Char)
  | a :: b :: c :: d :: rest => do
    let a ← hexValue? a
    let b ← hexValue? b
    let c ← hexValue? c
    let d ← hexValue? d
    return (((a * 16 + b) * 16 + c) * 16 + d, rest)
  | _ => none

/-- A piece of a string: a character, or half of a surrogate pair that stands alone. -/
abbrev Piece := Option Char

/-- What follows the `u` of an escape: one unit, or two that make a surrogate pair. -/
def unicodeEscape? (cs : List Char) : Option (Piece × List Char) := do
  let (high, rest) ← hexUnit? cs
  if 0xD800 ≤ high ∧ high < 0xDC00 then
    match rest with
    | '\\' :: 'u' :: rest' =>
      let (low, rest'') ← hexUnit? rest'
      if 0xDC00 ≤ low ∧ low < 0xE000 then
        return (some (Char.ofNat (0x10000 + (high - 0xD800) * 0x400 + (low - 0xDC00))), rest'')
      else return (none, rest)
    | _ => return (none, rest)
  else if 0xDC00 ≤ high ∧ high < 0xE000 then return (none, rest)
  else return (some (Char.ofNat high), rest)

def escape? : List Char → Option (Piece × List Char)
  | '"' :: rest => some (some '"', rest)
  | '\\' :: rest => some (some '\\', rest)
  | '/' :: rest => some (some '/', rest)
  | 'b' :: rest => some (some '\x08', rest)
  | 'f' :: rest => some (some '\x0c', rest)
  | 'n' :: rest => some (some '\n', rest)
  | 'r' :: rest => some (some '\r', rest)
  | 't' :: rest => some (some '\t', rest)
  | 'u' :: rest => unicodeEscape? rest
  | _ => none

/-- The pieces of a string up to its closing quote. -/
def pieces? : Nat → List Char → Option (List Piece × List Char)
  | 0, _ => none
  | _ + 1, [] => none
  | _ + 1, '"' :: rest => some ([], rest)
  | fuel + 1, '\\' :: rest => do
    let (piece, rest) ← escape? rest
    let (more, rest) ← pieces? fuel rest
    return (piece :: more, rest)
  | fuel + 1, c :: rest =>
    if c.toNat < 0x20 then none
    else do
      let (more, rest) ← pieces? fuel rest
      return (some c :: more, rest)

/-- The text that the pieces make, if none of them is half a pair. -/
def textOfPieces? : List Piece → Option (List Char)
  | [] => some []
  | none :: _ => none
  | some c :: rest => (textOfPieces? rest).map (c :: ·)

def string? (cs : List Char) : Option (Option String × List Char) :=
  (pieces? (cs.length + 1) cs).map fun (pieces, rest) => ((textOfPieces? pieces).map String.ofList, rest)

/-- A fraction's digits after its point, if there is one. -/
def fraction? : List Char → Option (List Char × List Char)
  | '.' :: rest =>
    let digits := rest.takeWhile Decimal.isDigit
    if digits = [] then none else some (digits, rest.dropWhile Decimal.isDigit)
  | cs => some ([], cs)

/-- An exponent after its mark, if there is one. -/
def exponent? : List Char → Option (Option Int × List Char)
  | c :: rest =>
    if c = 'e' ∨ c = 'E' then
      let (negative, body) := match rest with
        | '-' :: r => (true, r)
        | '+' :: r => (false, r)
        | r => (false, r)
      let digits := body.takeWhile Decimal.isDigit
      if digits = [] then none
      else
        let n : Int := Decimal.value digits
        some (some (if negative then -n else n), body.dropWhile Decimal.isDigit)
    else some (none, c :: rest)
  | [] => some (none, [])

def number? (cs : List Char) : Option (Number × List Char) := do
  let (negative, body) := match cs with
    | '-' :: rest => (true, rest)
    | rest => (false, rest)
  let whole := body.takeWhile Decimal.isDigit
  if whole = [] ∨ (whole.head? = some '0' ∧ 1 < whole.length) then none
  else
    let (fraction, rest) ← fraction? (body.dropWhile Decimal.isDigit)
    let (exponent, rest) ← exponent? rest
    let mantissa := Decimal.value (whole ++ fraction)
    match fraction, exponent with
    | [], none =>
      if negative ∧ mantissa = 0 then return (.decimal true 0 0, rest)
      else return (.int (if negative then -mantissa else mantissa), rest)
    | _, _ => return (.decimal negative mantissa (exponent.getD 0 - fraction.length), rest)

/-- The members, if each name has a text. -/
def named? : List (Option String × Json) → Option (List (String × Json))
  | [] => some []
  | (none, _) :: _ => none
  | (some name, j) :: rest => (named? rest).map ((name, j) :: ·)

/-- What is left after a fixed word. -/
def word? (word cs : List Char) : Option (List Char) :=
  if word.isPrefixOf cs then some (cs.drop word.length) else none

mutual

def value? : Nat → List Char → Option (Json × List Char)
  | 0, _ => none
  | fuel + 1, cs =>
    match skipBlanks cs with
    | 'n' :: rest => (word? ['u', 'l', 'l'] rest).map (Json.null, ·)
    | 't' :: rest => (word? ['r', 'u', 'e'] rest).map (Json.bool true, ·)
    | 'f' :: rest => (word? ['a', 'l', 's', 'e'] rest).map (Json.bool false, ·)
    | '"' :: rest =>
      (string? rest).map fun (text, rest) =>
        (match text with
          | some s => Json.str s
          | none => Json.broken, rest)
    | '[' :: rest =>
      match skipBlanks rest with
      | ']' :: rest => some (.arr [], rest)
      | rest => (elements? fuel rest).map fun (items, rest) => (.arr items, rest)
    | '{' :: rest =>
      match skipBlanks rest with
      | '}' :: rest => some (.obj [], rest)
      | rest =>
        (members? fuel rest).map fun (members, rest) =>
          (match named? members with
            | some members => Json.obj members
            | none => Json.broken, rest)
    | rest => (number? rest).map fun (n, rest) => (.num n, rest)

/-- One or more elements and the closing bracket. -/
def elements? : Nat → List Char → Option (List Json × List Char)
  | 0, _ => none
  | fuel + 1, cs => do
    let (item, rest) ← value? fuel cs
    match skipBlanks rest with
    | ']' :: rest => return ([item], rest)
    | ',' :: rest =>
      let (more, rest) ← elements? fuel rest
      return (item :: more, rest)
    | _ => none

/-- One or more members and the closing brace. -/
def members? : Nat → List Char → Option (List (Option String × Json) × List Char)
  | 0, _ => none
  | fuel + 1, cs => do
    match skipBlanks cs with
    | '"' :: rest =>
      let (name, rest) ← string? rest
      match skipBlanks rest with
      | ':' :: rest =>
        let (item, rest) ← value? fuel rest
        match skipBlanks rest with
        | '}' :: rest => return ([(name, item)], rest)
        | ',' :: rest =>
          let (more, rest) ← members? fuel rest
          return ((name, item) :: more, rest)
        | _ => none
      | _ => none
    | _ => none

end

/-- Reads a whole text as one value. -/
def read? (text : String) : Option Json := do
  let cs := text.toList
  let (value, rest) ← value? (2 * cs.length + 2) cs
  if skipBlanks rest = [] then some value else none

end DecodePipeline.Json
