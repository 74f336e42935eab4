import DecodePipeline.Shell.Arithmetic
import DecodePipeline.Text.Utf8

/-!
Formatted output: a format of plain text, escapes and directives, each of which takes an argument. The
format is used again as long as arguments are left.
-/

namespace DecodePipeline.Shell.Format

/-! ## Escapes -/

def isOctal (c : Char) : Bool := '0' ≤ c && c ≤ '7'

def octalValue (cs : List Char) : Nat := cs.foldl (fun n c => n * 8 + (c.toNat - 48)) 0

/-- The byte that a letter behind a backslash stands for. -/
def letterEscape? : Char → Option UInt8
  | 'a' => some 7
  | 'b' => some 8
  | 't' => some 9
  | 'n' => some 10
  | 'v' => some 11
  | 'f' => some 12
  | 'r' => some 13
  | '\\' => some 92
  | _ => none

/-- What follows a backslash: its bytes, and the rest. -/
def escape : List Char → List UInt8 × List Char
  | [] => ([92], [])
  | c :: r =>
    match letterEscape? c with
    | some b => ([b], r)
    | none =>
      let digits := (c :: r).takeWhile isOctal |>.take 3
      if digits.isEmpty then (92 :: Text.encodeUtf8 c.toString, r)
      else ([(octalValue digits).toUInt8], (c :: r).drop digits.length)

/-- A text with escapes, where a zero may stand before the digits of an octal one: its bytes, and whether
the output ends with it. -/
def unescape : Nat → List Char → List UInt8 × Bool
  | _, [] => ([], false)
  | 0, _ => ([], false)
  | _ + 1, '\\' :: 'c' :: _ => ([], true)
  | fuel + 1, '\\' :: '0' :: r =>
    let digits := r.takeWhile isOctal |>.take 3
    let (more, ended) := unescape fuel (r.drop digits.length)
    ((octalValue digits).toUInt8 :: more, ended)
  | fuel + 1, '\\' :: r =>
    let (bytes, rest) := escape r
    let (more, ended) := unescape fuel rest
    (bytes ++ more, ended)
  | fuel + 1, c :: r =>
    let (more, ended) := unescape fuel r
    (Text.encodeUtf8 c.toString ++ more, ended)

/-! ## Directives -/

inductive Amount where
  | number (n : Nat)
  | argument
  deriving DecidableEq, Repr

structure Directive where
  flags : List Char
  width : Amount
  precision : Option Amount
  letter : Char
  deriving DecidableEq, Repr

inductive Piece where
  | bytes (bs : List UInt8)
  | directive (d : Directive)
  | broken (text : String)
  deriving DecidableEq, Repr

def amount (cs : List Char) : Amount × List Char :=
  match cs with
  | '*' :: r => (.argument, r)
  | _ => (.number (Decimal.value (cs.takeWhile Char.isDigit)), cs.dropWhile Char.isDigit)

def isFlag (c : Char) : Bool := ['-', '+', ' ', '0', '#'].contains c

/-- A directive from behind its percent sign. -/
def directive? (cs : List Char) : Option (Directive × List Char) :=
  let flags := cs.takeWhile isFlag
  let (width, cs) := amount (cs.dropWhile isFlag)
  let (precision, cs) := match cs with
    | '.' :: r => let (p, r) := amount r; (some p, r)
    | _ => (none, cs)
  match cs with
  | letter :: r =>
    if ['d', 'i', 'u', 'o', 'x', 'X', 'c', 's', 'b'].contains letter then
      some (⟨flags, width, precision, letter⟩, r)
    else none
  | [] => none

def pieces : Nat → List Char → List Piece
  | _, [] => []
  | 0, _ => []
  | fuel + 1, '\\' :: r =>
    let (bytes, rest) := escape r
    .bytes bytes :: pieces fuel rest
  | fuel + 1, '%' :: '%' :: r => .bytes [37] :: pieces fuel r
  | fuel + 1, '%' :: r =>
    match directive? r with
    | some (d, rest) => .directive d :: pieces fuel rest
    | none => [.broken (String.ofList ('%' :: r.take 1))]
  | fuel + 1, c :: r => .bytes (Text.encodeUtf8 c.toString) :: pieces fuel r

/-- What has been written, the arguments that are left, the status, and complaints. -/
structure Progress where
  output : List UInt8 := []
  arguments : List String
  status : Nat := 0
  errors : List String := []
  ended : Bool := false

namespace Progress

def next (p : Progress) : Option String × Progress :=
  match p.arguments with
  | [] => (none, p)
  | a :: rest => (some a, { p with arguments := rest })

def complain (p : Progress) (text : String) : Progress :=
  { p with status := 1, errors := p.errors ++ [text] }

def number (p : Progress) : Int × Progress :=
  match p.next with
  | (none, p) => (0, p)
  | (some text, p) =>
    match text.toList with
    | '\'' :: c :: _ | '"' :: c :: _ => (c.toNat, p)
    | cs =>
      let cs := cs.dropWhile Char.isWhitespace
      let (negative, body) := match cs with
        | '-' :: r => (true, r)
        | '+' :: r => (false, r)
        | r => (false, r)
      match Arithmetic.numeral? body with
      | some n => (if negative then -n else n, p)
      | none =>
        let digits := body.takeWhile Char.isDigit
        if digits.isEmpty then (0, p.complain (text ++ ": expected numeric value"))
        else
          let n : Int := Decimal.value digits
          (if negative then -n else n, p.complain (text ++ ": not completely converted"))

def amount (p : Progress) : Amount → Nat × Progress
  | .number n => (n, p)
  | .argument => let (n, p) := p.number; (n.toNat, p)

end Progress

/-- Bytes with blanks or zeros up to a width. -/
def pad (flags : List Char) (width : Nat) (zeros : Bool) (sign body : List UInt8) : List UInt8 :=
  let missing := width - (sign.length + body.length)
  if flags.contains '-' then sign ++ body ++ List.replicate missing 32
  else if zeros then sign ++ List.replicate missing 48 ++ body
  else List.replicate missing 32 ++ sign ++ body

def asciiBytes (cs : List Char) : List UInt8 := cs.map fun c => c.toNat.toUInt8

/-- An integer by a directive. -/
def integer (d : Directive) (width : Nat) (precision : Option Nat) (n : Int) : List UInt8 :=
  let signed := d.letter = 'd' ∨ d.letter = 'i'
  let magnitude := if signed then n.natAbs else (n.emod Decimal.limit64).toNat
  let base := match d.letter with
    | 'o' => 8
    | 'x' | 'X' => 16
    | _ => 10
  let digits := Nat.toDigits base magnitude
  let digits := if d.letter = 'X' then digits.map Char.toUpper else digits
  let digits := if precision = some 0 ∧ magnitude = 0 then [] else digits
  let digits := List.replicate (precision.getD 0 - digits.length) '0' ++ digits
  let mark := if d.flags.contains '#' ∧ magnitude ≠ 0 then
      match d.letter with
      | 'x' => ['0', 'x']
      | 'X' => ['0', 'X']
      | 'o' => ['0']
      | _ => []
    else []
  let sign :=
    if !signed then mark
    else if n < 0 then ['-']
    else if d.flags.contains '+' then ['+']
    else if d.flags.contains ' ' then [' ']
    else []
  pad d.flags width (d.flags.contains '0' && precision.isNone) (asciiBytes sign) (asciiBytes digits)

def write (p : Progress) (d : Directive) : Progress :=
  let (width, p) := p.amount d.width
  let (precision, p) := match d.precision with
    | none => (none, p)
    | some a => let (n, p) := p.amount a; (some n, p)
  let cutTo (bytes : List UInt8) : List UInt8 := match precision with
    | some n => bytes.take n
    | none => bytes
  match d.letter with
  | 's' =>
    let (text, p) := p.next
    { p with output := p.output ++ pad d.flags width false [] (cutTo (Text.encodeUtf8 (text.getD ""))) }
  | 'c' =>
    let (text, p) := p.next
    { p with output := p.output ++ pad d.flags width false [] ((Text.encodeUtf8 (text.getD "")).take 1) }
  | 'b' =>
    let (text, p) := p.next
    let cs := (text.getD "").toList
    let (bytes, ended) := unescape cs.length cs
    { p with output := p.output ++ pad d.flags width false [] (cutTo bytes), ended }
  | _ =>
    let (n, p) := p.number
    { p with output := p.output ++ integer d width precision n }

def step (p : Progress) : Piece → Progress
  | .bytes bs => if p.ended then p else { p with output := p.output ++ bs }
  | .directive d => if p.ended then p else write p d
  | .broken text =>
    if p.ended then p else { p.complain (text ++ ": invalid directive") with ended := true, status := 2 }

/-- Uses the format once, and again while arguments are left and it takes some. -/
def run : Nat → List Piece → Progress → Progress
  | 0, _, p => p
  | fuel + 1, ps, p =>
    let after := ps.foldl step p
    if after.ended || after.arguments.isEmpty || after.arguments.length = p.arguments.length then after
    else run fuel ps after

def print (format : String) (arguments : List String) : Progress :=
  let cs := format.toList
  run (arguments.length + 1) (pieces cs.length cs) { arguments }

end DecodePipeline.Shell.Format
