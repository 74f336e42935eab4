import DecodePipeline.Decimal.Natural

/-!
Arithmetic inside scripts: integers of 64 bits that wrap around, variables by name, and assignments. An
expression is read as a whole before any of it counts.
-/

namespace DecodePipeline.Shell

abbrev Variables := List (String × String)

namespace Variables

def get? (vs : Variables) (name : String) : Option String :=
  (vs.find? (·.1 = name)).map (·.2)

def erase (vs : Variables) (name : String) : Variables :=
  vs.filter (·.1 ≠ name)

def set (vs : Variables) (name value : String) : Variables :=
  (name, value) :: vs.erase name

end Variables

namespace Arithmetic

inductive Token where
  | number (n : Nat)
  | name (s : String)
  | sign (s : String)
  deriving DecidableEq, Repr

inductive Expr where
  | number (n : Nat)
  | name (s : String)
  | unary (sign : String) (e : Expr)
  | binary (sign : String) (a b : Expr)
  | assign (name : String) (sign : String) (e : Expr)
  | choose (test a b : Expr)
  deriving Repr

def signs : List String :=
  ["<<=", ">>=", "&&", "||", "==", "!=", "<=", ">=", "<<", ">>", "+=", "-=", "*=", "/=", "%=", "&=", "|=",
    "^=", "+", "-", "*", "/", "%", "<", ">", "=", "!", "~", "&", "|", "^", "?", ":", "(", ")"]

/-- Two-place signs, the loosest first. -/
def levels : List (List String) :=
  [["||"], ["&&"], ["|"], ["^"], ["&"], ["==", "!="], ["<=", ">=", "<", ">"], ["<<", ">>"], ["+", "-"],
    ["*", "/", "%"]]

def assignments : List String :=
  ["=", "+=", "-=", "*=", "/=", "%=", "&=", "|=", "^=", "<<=", ">>="]

/-! ## Reading -/

def digitOf (c : Char) : Option Nat :=
  if c.isDigit then some (c.toNat - 48)
  else if 'a' ≤ c ∧ c ≤ 'z' then some (c.toNat - 87)
  else if 'A' ≤ c ∧ c ≤ 'Z' then some (c.toNat - 55)
  else none

/-- The number that digits of a base write. -/
def inBase? (base : Nat) (cs : List Char) : Option Nat :=
  if cs.isEmpty then none
  else cs.foldlM (fun n c => (digitOf c).bind fun d => if d < base then some (n * base + d) else none) 0

/-- Decimal, octal after a zero, or hexadecimal after a zero and an x. -/
def numeral? : List Char → Option Nat
  | '0' :: 'x' :: r | '0' :: 'X' :: r => inBase? 16 r
  | '0' :: c :: r => inBase? 8 (c :: r)
  | cs => inBase? 10 cs

def isWordChar (c : Char) : Bool := c.isAlphanum || c = '_'

def tokens : Nat → List Char → Option (List Token)
  | _, [] => some []
  | 0, _ => none
  | fuel + 1, c :: r =>
    if c = ' ' ∨ c = '\t' ∨ c = '\n' then tokens fuel r
    else if isWordChar c then
      let word := c :: r.takeWhile isWordChar
      let token? := if c.isDigit then (numeral? word).map .number else some (.name (String.ofList word))
      token?.bind fun t => (tokens fuel (r.dropWhile isWordChar)).map (t :: ·)
    else
      (signs.find? fun s => s.toList.isPrefixOf (c :: r)).bind fun s =>
        (tokens fuel ((c :: r).drop s.length)).map (.sign s :: ·)

mutual

/-- An expression with assignments and choices. -/
def expression : Nat → List Token → Option (Expr × List Token)
  | 0, _ => none
  | fuel + 1, ts =>
    match ts with
    | .name s :: .sign op :: rest =>
      if assignments.contains op then
        (expression fuel rest).map fun (e, rest) => (.assign s op e, rest)
      else choice fuel ts
    | _ => choice fuel ts

def choice : Nat → List Token → Option (Expr × List Token)
  | 0, _ => none
  | fuel + 1, ts => do
    let (test, rest) ← operators fuel levels ts
    match rest with
    | .sign "?" :: rest =>
      let (a, rest) ← expression fuel rest
      match rest with
      | .sign ":" :: rest =>
        let (b, rest) ← choice fuel rest
        return (.choose test a b, rest)
      | _ => none
    | _ => return (test, rest)

def operators : Nat → List (List String) → List Token → Option (Expr × List Token)
  | 0, _, _ => none
  | fuel + 1, [], ts => primary fuel ts
  | fuel + 1, level :: tighter, ts => do
    let (first, rest) ← operators fuel tighter ts
    continued fuel level tighter first rest

/-- More operands of one level, to the left. -/
def continued : Nat → List String → List (List String) → Expr → List Token → Option (Expr × List Token)
  | 0, _, _, _, _ => none
  | fuel + 1, level, tighter, first, ts =>
    match ts with
    | .sign s :: rest =>
      if level.contains s then do
        let (second, rest) ← operators fuel tighter rest
        continued fuel level tighter (.binary s first second) rest
      else some (first, ts)
    | _ => some (first, ts)

def primary : Nat → List Token → Option (Expr × List Token)
  | 0, _ => none
  | fuel + 1, ts =>
    match ts with
    | .number n :: rest => some (.number n, rest)
    | .name s :: rest => some (.name s, rest)
    | .sign "(" :: rest => do
      let (e, rest) ← expression fuel rest
      match rest with
      | .sign ")" :: rest => return (e, rest)
      | _ => none
    | .sign s :: rest =>
      if ["+", "-", "!", "~"].contains s then
        (primary fuel rest).map fun (e, rest) => (.unary s e, rest)
      else none
    | [] => none

end

def read? (text : String) : Option Expr := do
  let cs := text.toList
  let ts ← tokens cs.length cs
  if ts.isEmpty then return .number 0
  match ← expression (32 * ts.length + 64) ts with
  | (e, []) => return e
  | _ => none

/-! ## Values -/

def wrap (n : Int) : Int := n.bmod Decimal.limit64

def ofBool (b : Bool) : Int := if b then 1 else 0

def natOp (f : Nat → Nat → Nat) (a b : Int) : Int :=
  wrap (f (a.emod Decimal.limit64).toNat (b.emod Decimal.limit64).toNat)

/-- Why an expression has no value. -/
inductive Trouble where
  | divisionByZero
  | notANumber (text : String)
  deriving DecidableEq, Repr

def apply (sign : String) (a b : Int) : Except Trouble Int :=
  match sign with
  | "|" => .ok (natOp Nat.lor a b)
  | "^" => .ok (natOp Nat.xor a b)
  | "&" => .ok (natOp Nat.land a b)
  | "==" => .ok (ofBool (a = b))
  | "!=" => .ok (ofBool (a ≠ b))
  | "<" => .ok (ofBool (a < b))
  | "<=" => .ok (ofBool (a ≤ b))
  | ">" => .ok (ofBool (b < a))
  | ">=" => .ok (ofBool (b ≤ a))
  | "<<" => .ok (wrap (a * Decimal.twoTo (b.emod 64).toNat))
  | ">>" => .ok (a.fdiv (Decimal.twoTo (b.emod 64).toNat))
  | "+" => .ok (wrap (a + b))
  | "-" => .ok (wrap (a - b))
  | "*" => .ok (wrap (a * b))
  | "/" => if b = 0 then .error .divisionByZero else .ok (wrap (a.tdiv b))
  | "%" => if b = 0 then .error .divisionByZero else .ok (a.tmod b)
  | _ => .ok b

/-- The number in the text of a variable; nothing counts as zero. -/
def ofText (text : String) : Except Trouble Int :=
  let cs := (text.toList.dropWhile (· = ' ')).reverse.dropWhile (· = ' ') |>.reverse
  let (negative, body) := match cs with
    | '-' :: r => (true, r)
    | '+' :: r => (false, r)
    | r => (false, r)
  if cs.isEmpty then .ok 0
  else
    match numeral? body with
    | some n => .ok (wrap (if negative then -n else n))
    | none => .error (.notANumber text)

def eval (vs : Variables) : Expr → Except Trouble (Int × Variables)
  | .number n => .ok (wrap n, vs)
  | .name s => do return (← ofText ((vs.get? s).getD ""), vs)
  | .unary sign e => do
    let (n, vs) ← eval vs e
    match sign with
    | "-" => return (wrap (-n), vs)
    | "!" => return (ofBool (n = 0), vs)
    | "~" => return (-n - 1, vs)
    | _ => return (n, vs)
  | .binary "&&" a b => do
    let (m, vs) ← eval vs a
    if m = 0 then return (0, vs)
    let (n, vs) ← eval vs b
    return (ofBool (n ≠ 0), vs)
  | .binary "||" a b => do
    let (m, vs) ← eval vs a
    if m ≠ 0 then return (1, vs)
    let (n, vs) ← eval vs b
    return (ofBool (n ≠ 0), vs)
  | .binary sign a b => do
    let (m, vs) ← eval vs a
    let (n, vs) ← eval vs b
    return (← apply sign m n, vs)
  | .assign name sign e => do
    let (n, vs) ← eval vs e
    let own ← if sign = "=" then pure 0 else ofText ((vs.get? name).getD "")
    let value ← apply ((sign.dropEnd 1).toString) own n
    return (value, vs.set name (toString value))
  | .choose test a b => do
    let (m, vs) ← eval vs test
    if m ≠ 0 then eval vs a else eval vs b

end Arithmetic

end DecodePipeline.Shell
