import DecodePipeline.Text.Blank

/-!
The place in a YAML text that has been reached, and the character classes that the format is written in.
A line ends at a line feed, a carriage return, both in this order, or one of three further line ends.
-/

namespace DecodePipeline.Yaml

/-! ## Character classes -/

/-- The characters that a document may hold at all. -/
def isAllowed (c : Char) : Bool :=
  let n := c.toNat
  n == 0x09 || n == 0x0A || n == 0x0D || (0x20 ≤ n && n ≤ 0x7E) || n == 0x85 || (0xA0 ≤ n && n ≤ 0xD7FF)
    || (0xE000 ≤ n && n ≤ 0xFFFD) || 0x10000 ≤ n

def isBlank (c : Char) : Bool :=
  c = ' ' || c = '\t'

def isBreak (c : Char) : Bool :=
  c = '\n' || c = '\r' || c = '\u0085' || c = '\u2028' || c = '\u2029'

def isSpace (c : Char) : Bool :=
  isBlank c || isBreak c

def isWord (c : Char) : Bool :=
  c.isAlphanum || c = '_' || c = '-'

/-- The end of the text counts as white space. -/
def endsWord : Option Char → Bool
  | none => true
  | some c => isSpace c

/-- The end of the text counts as a line end. -/
def endsLine : Option Char → Bool
  | none => true
  | some c => isBreak c

/-! ## The cursor -/

/-- What is left of a text, and where in the text that is. -/
structure Cursor where
  rest : List Char
  index : Nat := 0
  line : Nat := 0
  column : Nat := 0
  deriving Repr

namespace Cursor

def char? (c : Cursor) : Option Char := c.rest.head?

/-- The character `n` places ahead. -/
def ahead? (c : Cursor) (n : Nat) : Option Char := c.rest[n]?

/-- Goes past `n` characters within a line. -/
def skip (c : Cursor) (n : Nat) : Cursor :=
  let taken := (c.rest.take n).length
  { c with rest := c.rest.drop n, index := c.index + taken, column := c.column + taken }

/-- Goes past all characters at the front that satisfy `p`; none of them may end a line. -/
def skipWhile (p : Char → Bool) (c : Cursor) : Cursor :=
  c.skip (c.rest.takeWhile p).length

/-- Goes past a line end, if one is next: what it stands for in a scalar. -/
def takeBreak (c : Cursor) : List Char × Cursor :=
  let next (n : Nat) : Cursor := ⟨c.rest.drop n, c.index + n, c.line + 1, 0⟩
  match c.rest with
  | '\r' :: '\n' :: _ => (['\n'], next 2)
  | '\r' :: _ | '\n' :: _ | '\u0085' :: _ => (['\n'], next 1)
  | '\u2028' :: _ => (['\u2028'], next 1)
  | '\u2029' :: _ => (['\u2029'], next 1)
  | _ => ([], c)

def skipBreak (c : Cursor) : Cursor := c.takeBreak.2

def skipBlanks (c : Cursor) : Cursor := c.skipWhile isBlank

/-- Goes past a comment, if one is next, up to the line's end. -/
def skipComment (c : Cursor) : Cursor :=
  if c.char? = some '#' then c.skipWhile (!isBreak ·) else c

/-- A line that begins with the marker alone or with the marker and white space. -/
def isMarker (c : Cursor) (marker : List Char) : Bool :=
  c.column == 0 && marker.isPrefixOf c.rest && endsWord (c.ahead? marker.length)

/-- A line that begins or ends a document. -/
def isDocumentMarker (c : Cursor) : Bool :=
  c.isMarker ['-', '-', '-'] || c.isMarker ['.', '.', '.']

/-- Goes past the white space and the comment at the end of a line, and past the line end; anything else
there is refused. -/
def finishLine? (c : Cursor) : Option Cursor :=
  let c := c.skipBlanks.skipComment
  if endsLine c.char? then some c.skipBreak else none

/-- The beginning of a text, after its byte order mark. -/
def ofText (text : List Char) : Cursor :=
  match text with
  | '\uFEFF' :: rest => { rest }
  | _ => { rest := text }

end Cursor

end DecodePipeline.Yaml
