import DecodePipeline.Config.Record
import DecodePipeline.Decimal.Shortest
import DecodePipeline.Yaml.Node

/-!
YAML values read as plain kinds of value. A text may be any scalar; numbers must be plain, so that a
quoted number stays a text. A value that is left out stands for an empty record or list.
-/

namespace DecodePipeline.Yaml

structure Value where
  node : Node
  anchors : Anchors

namespace Value

def target (v : Value) : Value :=
  match v.node with
  | .alias number => { v with node := (v.anchors.node? number).getD v.node }
  | _ => v

def text? (v : Value) : Option String :=
  match v.target.node with
  | .scalar text _ _ => some text
  | _ => none

def nullTag : String := "tag:yaml.org,2002:null"

def intTag : String := "tag:yaml.org,2002:int"

def floatTag : String := "tag:yaml.org,2002:float"

/-- The text of a scalar that may be a number: a plain one, or a literal block with the number's tag. -/
def numeral? (tag : String) (v : Value) : Option (List Char) :=
  match v.target.node with
  | .scalar text .plain _ => some text.toList
  | .scalar text .literal (some t) => if t = tag then some text.toList else none
  | _ => none

/-! ## Integers -/

def digitOf? (base : Nat) (c : Char) : Option Nat :=
  (Json.hexValue? c).filter (· < base)

/-- A number in a base below 17, perhaps with a plus sign in front. -/
def natInBase? (base : Nat) (cs : List Char) : Option Nat :=
  let digits := match cs with
    | '+' :: rest => rest
    | _ => cs
  if digits = [] then none
  else digits.foldl (fun acc c => do return (← acc) * base + (← digitOf? base c)) (some 0)

/-- Digits that begin with a zero and go on; they are no number. -/
def isZeroLed (cs : List Char) : Bool :=
  match cs with
  | '0' :: rest => !rest.isEmpty && rest.all Decimal.isDigit
  | _ => false

def isSigned (cs : List Char) : Bool :=
  cs.head? = some '+' || cs.head? = some '-'

/-- An integer in decimal or, after its mark, in base 16, 8 or 2. A plus sign may come first. -/
def natOfText? (limit : Nat) (cs : List Char) : Option Nat :=
  let body := match cs with
    | '+' :: rest => rest
    | _ => cs
  let marked (base : Nat) (digits : List Char) : Option Nat :=
    if isSigned digits then none else (natInBase? base digits).filter (· < limit)
  match body with
  | '0' :: 'x' :: digits => marked 16 digits
  | '0' :: 'o' :: digits => marked 8 digits
  | '0' :: 'b' :: digits => marked 2 digits
  | _ => if isSigned body || isZeroLed body then none else (natInBase? 10 body).filter (· < limit)

def natBelow? (limit : Nat) (v : Value) : Option Nat :=
  (v.numeral? intTag).bind (natOfText? limit)

/-! ## Doubles -/

/-- Digits with an optional point among or around them: the digits and how many follow the point. -/
def decimalDigits? (cs : List Char) : Option (List Char × Nat × List Char) :=
  let whole := cs.takeWhile Decimal.isDigit
  let rest := cs.dropWhile Decimal.isDigit
  let (fraction, rest) := match rest with
    | '.' :: r => (r.takeWhile Decimal.isDigit, r.dropWhile Decimal.isDigit)
    | _ => ([], rest)
  if whole = [] ∧ fraction = [] then none else some (whole ++ fraction, fraction.length, rest)

/-- A decimal number with an optional sign, point and exponent. -/
def decimal? (cs : List Char) : Option Float := do
  let (negative, body) := match cs with
    | '-' :: rest => (true, rest)
    | '+' :: rest => (false, rest)
    | _ => (false, cs)
  let (digits, places, rest) ← decimalDigits? body
  let (exponent, rest) ← Json.exponent? rest
  if rest = [] then
    return Decimal.toFloat negative (Decimal.value digits) (exponent.getD 0 - places)
  else none

def infinity : Float := 1.0 / 0.0

def notANumber : Float := 0.0 / 0.0

/-- A finite decimal number, or a dot and the word for infinity or for what is no number. -/
def floatOfText? (cs : List Char) : Option Float :=
  let text := String.ofList cs
  let body := match cs with
    | '+' :: rest => rest
    | _ => cs
  let word := String.ofList body
  if cs.head? = some '+' ∧ isSigned body then none
  else if [".inf", ".Inf", ".INF"].contains word then some infinity
  else if ["-.inf", "-.Inf", "-.INF"].contains text then some (-infinity)
  else if [".nan", ".NaN", ".NAN"].contains text then some notANumber
  else (decimal? body).filter Float.isFinite

def float? (v : Value) : Option Float :=
  (v.numeral? floatTag).bind floatOfText?

/-! ## Nothing, lists and records -/

def nullWords : List String := ["null", "Null", "NULL", "~"]

/-- Whether a value stands for nothing. What carries the tag for nothing must be written so. -/
def isNull? (v : Value) : Option Bool :=
  match v.target.node with
  | .scalar text .plain (some tag) =>
    if tag = nullTag then (if nullWords.contains text then some true else none) else some false
  | .scalar text .plain none => some (text.isEmpty || nullWords.contains text)
  | _ => some false

def isLeftOut : Node → Bool
  | .scalar text .plain _ => text.isEmpty
  | _ => false

def items? (v : Value) : Option (List Value) :=
  match v.target.node with
  | .sequence items => some (items.map (⟨·, v.anchors⟩))
  | n => if isLeftOut n then some [] else none

def member? (members : List (String × Value)) (name : String) : Option (Option Value) :=
  match members.filter (·.1 = name) with
  | [] => some none
  | [(_, v)] => some (some v)
  | _ => none

/-- The members by name. Every key must be a text. -/
def record? (names : List String) (v : Value) : Option (List (Option Value)) :=
  match v.target.node with
  | .mapping members => do
    let named ← members.mapM fun (key, value) => do
      return ((← text? ⟨key, v.anchors⟩), Value.mk value v.anchors)
    names.mapM (member? named)
  | n => if isLeftOut n then some (names.map fun _ => none) else none

def format : Format Value := ⟨text?, natBelow?, float?, isNull?, items?, record?⟩

end Value

/-- The root of a document; a document without one is a value that is left out. -/
def Document.value (d : Document) : Value := ⟨d.root.getD .empty, d.anchors⟩

end DecodePipeline.Yaml
