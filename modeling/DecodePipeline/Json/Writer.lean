import DecodePipeline.Decimal.Natural
import DecodePipeline.Json.Value

/-!
Compact JSON text: no blanks, and in strings only what must be escaped is escaped.
-/

namespace DecodePipeline.Json

def hexDigit (n : Nat) : Char :=
  if n < 10 then Char.ofNat ('0'.toNat + n) else Char.ofNat ('a'.toNat + (n - 10))

/-- Quotes, backslashes and control characters are escaped, the latter by a letter where there is one. -/
def escapeChar (c : Char) : List Char :=
  if c = '"' then ['\\', '"']
  else if c = '\\' then ['\\', '\\']
  else if c = '\x08' then ['\\', 'b']
  else if c = '\x0c' then ['\\', 'f']
  else if c = '\n' then ['\\', 'n']
  else if c = '\r' then ['\\', 'r']
  else if c = '\t' then ['\\', 't']
  else if c.toNat < 0x20 then
    ['\\', 'u', '0', '0', hexDigit (c.toNat / 16), hexDigit (c.toNat % 16)]
  else [c]

def stringChars (s : String) : List Char :=
  '"' :: s.toList.flatMap escapeChar ++ ['"']

def intChars (i : Int) : List Char :=
  (if i < 0 then ['-'] else []) ++ Decimal.digits i.natAbs

/-- A decimal with a small exponent is written with a point, any other with an exponent. -/
def decimalChars (negative : Bool) (mantissa : Nat) (exponent : Int) : List Char :=
  let digits := Decimal.digits mantissa
  let body :=
    if 0 ≤ exponent ∧ digits.length + exponent.toNat ≤ 17 then
      digits ++ List.replicate exponent.toNat '0' ++ ['.', '0']
    else if exponent < 0 ∧ exponent.natAbs < digits.length then
      digits.take (digits.length - exponent.natAbs) ++
        '.' :: digits.drop (digits.length - exponent.natAbs)
    else digits ++ 'e' :: intChars exponent
  if negative then '-' :: body else body

def numberChars : Number → List Char
  | .int i => intChars i
  | .decimal negative mantissa exponent => decimalChars negative mantissa exponent

mutual

def chars : Json → List Char
  | .null => ['n', 'u', 'l', 'l']
  | .bool true => ['t', 'r', 'u', 'e']
  | .bool false => ['f', 'a', 'l', 's', 'e']
  | .num n => numberChars n
  | .str s => stringChars s
  | .broken => ['n', 'u', 'l', 'l']
  | .arr items => '[' :: itemsChars items ++ [']']
  | .obj members => '{' :: membersChars members ++ ['}']

def itemsChars : List Json → List Char
  | [] => []
  | [j] => chars j
  | j :: rest => chars j ++ ',' :: itemsChars rest

def membersChars : List (String × Json) → List Char
  | [] => []
  | [(name, j)] => stringChars name ++ ':' :: chars j
  | (name, j) :: rest => stringChars name ++ ':' :: chars j ++ ',' :: membersChars rest

end

def render (j : Json) : String :=
  String.ofList (chars j)

end DecodePipeline.Json
