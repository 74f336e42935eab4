/-!
JSON values as they are written: an object keeps its members in order and may repeat a name, and a
number keeps whether it was written as an integer.
-/

namespace DecodePipeline

/-- A number: an integer, or a decimal `mantissa · 10 ^ exponent`, written with a fraction, an exponent or
as minus zero. -/
inductive Json.Number where
  | int (value : Int)
  | decimal (negative : Bool) (mantissa : Nat) (exponent : Int)
  deriving DecidableEq, Repr

/-- A string, or an object's member name, may hold an escape for half of a surrogate pair and then has no
text; such a value is `broken`. -/
inductive Json where
  | null
  | bool (value : Bool)
  | num (value : Json.Number)
  | str (text : String)
  | broken
  | arr (items : List Json)
  | obj (members : List (String × Json))
  deriving Repr

namespace Json

instance : Inhabited Json := ⟨null⟩

def ofNat (n : Nat) : Json := num (.int n)

def ofInt (i : Int) : Json := num (.int i)

def ofOption {α : Type} (f : α → Json) : Option α → Json
  | none => null
  | some a => f a

def strings (xs : List String) : Json := arr (xs.map str)

def field? (name : String) : Json → Option Json
  | obj members => (members.find? (·.1 = name)).map (·.2)
  | _ => none

def text? : Json → Option String
  | str s => some s
  | _ => none

/-- An integer of at least zero and below `limit`. -/
def natBelow? (limit : Nat) : Json → Option Nat
  | num (.int i) => if 0 ≤ i ∧ i.toNat < limit then some i.toNat else none
  | _ => none

def items? : Json → Option (List Json)
  | arr items => some items
  | _ => none

def all? {α : Type} (f : Json → Option α) : List Json → Option (List α)
  | [] => some []
  | j :: rest => do return (← f j) :: (← all? f rest)

end Json

end DecodePipeline
