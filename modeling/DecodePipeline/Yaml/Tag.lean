import DecodePipeline.Text.Utf8
import DecodePipeline.Yaml.Scalar

/-!
Tags and directives. A tag is written in full between angle brackets, or as a handle with a suffix; a
directive names the version of the format or gives a handle its meaning.
-/

namespace DecodePipeline.Yaml

/-- A tag as it is written. The tag in full, and the single mark `!`, have an empty handle. -/
structure Tag where
  handle : String
  suffix : String
  deriving DecidableEq, Repr

inductive Directive where
  | version (major minor : Nat)
  | handle (handle : String) (stem : String)
  deriving DecidableEq, Repr

/-- The marks that may stand in a tag's suffix, besides word characters. -/
def isTagMark (c : Char) : Bool :=
  [';', '/', '?', ':', '@', '&', '=', '+', '$', '.', '!', '~', '*', '\'', '(', ')'].contains c

/-- One byte written as a percent sign and two hexadecimal digits. -/
def octet? (cs : List Char) : Option (UInt8 × List Char) :=
  match cs with
  | '%' :: a :: b :: rest => do
    return (UInt8.ofNat ((← Json.hexValue? a) * 16 + (← Json.hexValue? b)), rest)
  | _ => none

def octets? : Nat → List Char → Option (List UInt8 × List Char)
  | 0, cs => some ([], cs)
  | n + 1, cs => do
    let (b, cs) ← octet? cs
    let (more, cs) ← octets? n cs
    return (b :: more, cs)

/-- How many bytes a character has that begins with this one. -/
def sequenceLength? (lead : UInt8) : Option Nat :=
  if lead < 0x80 then some 1
  else if lead &&& 0xE0 = 0xC0 then some 2
  else if lead &&& 0xF0 = 0xE0 then some 3
  else if lead &&& 0xF8 = 0xF0 then some 4
  else none

/-- A character written as escaped bytes: the bytes, and how many characters they take. -/
def escapedBytes? (cs : List Char) : Option (List UInt8 × Nat) := do
  let (lead, rest) ← octet? cs
  let n ← sequenceLength? lead
  let (others, _) ← octets? (n - 1) rest
  if others.all fun b => b &&& 0xC0 = 0x80 then return (lead :: others, 3 * n) else none

/-- The bytes of a tag's suffix. Inside angle brackets brackets and commas may stand in it too. -/
def tagBytes? (full : Bool) : Nat → List UInt8 → Cursor → Option (List UInt8 × Cursor)
  | 0, _, _ => none
  | fuel + 1, bytes, c =>
    match c.char? with
    | none => some (bytes, c)
    | some x =>
      if x = '%' then do
        let (more, n) ← escapedBytes? c.rest
        tagBytes? full fuel (bytes ++ more) (c.skip n)
      else if isWord x || isTagMark x || (full && (x = ',' || x = '[' || x = ']')) then
        tagBytes? full fuel (bytes ++ [UInt8.ofNat x.toNat]) (c.skip 1)
      else some (bytes, c)

def tagText? (full : Bool) (c : Cursor) : Option (String × Cursor) :=
  (tagBytes? full (c.rest.length + 1) [] c).map fun (bytes, c) => (Text.decodeLossy bytes, c)

/-- A handle: an exclamation mark, perhaps with a word and a second mark after it. -/
def handle? (c : Cursor) : Option (String × Cursor) :=
  if c.char? = some '!' then
    let word := (c.rest.drop 1).takeWhile isWord
    let c := c.skip (1 + word.length)
    if c.char? = some '!' then some (String.ofList ('!' :: word ++ ['!']), c.skip 1)
    else some (String.ofList ('!' :: word), c)
  else none

def isFullHandle (handle : String) : Bool :=
  1 < handle.length && handle.toList.getLast? = some '!'

def tag? (flow : Bool) (c : Cursor) : Option (Tag × Cursor) := do
  let (tag, c) ←
    if c.ahead? 1 = some '<' then do
      let (suffix, c) ← tagText? true (c.skip 2)
      if suffix.isEmpty ∨ c.char? ≠ some '>' then none
      else some (Tag.mk "" suffix, c.skip 1)
    else do
      let (handle, c) ← handle? c
      let (suffix, c) ← tagText? false c
      if isFullHandle handle then
        if suffix.isEmpty then none else some (Tag.mk handle suffix, c)
      else
        let suffix := String.ofList (handle.toList.drop 1) ++ suffix
        some (if suffix.isEmpty then Tag.mk "" "!" else Tag.mk "!" suffix, c)
  if endsWord c.char? ∨ (flow ∧ c.char? = some ',') then return (tag, c) else none

/-- A number of a version: one to nine digits. -/
def versionNumber? (c : Cursor) : Option (Nat × Cursor) :=
  let digits := c.rest.takeWhile Char.isDigit
  if digits = [] ∨ 9 < digits.length then none
  else some (Decimal.value digits, c.skip digits.length)

def versionDirective? (c : Cursor) : Option (Directive × Cursor) := do
  let (major, c) ← versionNumber? c.skipBlanks
  if c.char? = some '.' then
    let (minor, c) ← versionNumber? (c.skip 1)
    return (.version major minor, c)
  else none

def handleDirective? (c : Cursor) : Option (Directive × Cursor) := do
  let (handle, c) ← handle? c.skipBlanks
  if ¬(handle = "!" ∨ isFullHandle handle) ∨ ¬(c.char?.any isBlank) then none
  else
    let (stem, c) ← tagText? true c.skipBlanks
    if stem.isEmpty ∨ ¬(endsWord c.char?) then none else return (.handle handle stem, c)

def directive? (c : Cursor) : Option (Directive × Cursor) := do
  let c := c.skip 1
  let name := c.rest.takeWhile isWord
  let c := c.skip name.length
  if name = [] ∨ ¬(endsWord c.char?) then none
  else
    let (d, c) ←
      if name = ['Y', 'A', 'M', 'L'] then versionDirective? c
      else if name = ['T', 'A', 'G'] then handleDirective? c
      else none
    return (d, ← c.finishLine?)

end DecodePipeline.Yaml
