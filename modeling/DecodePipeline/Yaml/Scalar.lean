import DecodePipeline.Json.Reader
import DecodePipeline.Yaml.Cursor

/-!
Scalars: plain ones, quoted ones and blocks. Line ends inside a scalar are folded: a single one becomes a
space, more of them become one less; a block that is literal keeps them. Every reader stands behind the
scalar's first mark and gives back the text with the cursor after it.
-/

namespace DecodePipeline.Yaml

inductive Style where
  | plain
  | quoted
  | literal
  | folded
  deriving DecidableEq, Repr

/-! ## White space inside a scalar -/

/-- White space between two words of a scalar: blanks, or a first line end and further ones. -/
structure Gap where
  blanks : List Char := []
  broken : Bool := false
  first : List Char := []
  more : List Char := []

namespace Gap

def text (g : Gap) : List Char :=
  if g.broken then
    if g.first = ['\n'] then (if g.more = [] then [' '] else g.more) else g.first ++ g.more
  else g.blanks

/-- Takes in white space. A tab that a line begins with, before column `indent`, is refused. -/
def extend? (indent : Int) : Nat → Gap → Cursor → Option (Gap × Cursor)
  | 0, _, _ => none
  | fuel + 1, g, c =>
    match c.char? with
    | none => some (g, c)
    | some x =>
      if isBlank x then
        if g.broken then
          if x = '\t' ∧ (c.column : Int) < indent then none else extend? indent fuel g (c.skip 1)
        else extend? indent fuel { g with blanks := g.blanks ++ [x] } (c.skip 1)
      else if isBreak x then
        let (b, c) := c.takeBreak
        if g.broken then extend? indent fuel { g with more := g.more ++ b } c
        else extend? indent fuel { broken := true, first := b } c
      else some (g, c)

end Gap

/-! ## Plain scalars -/

def isFlowMark (c : Char) : Bool :=
  c = ',' || c = '[' || c = ']' || c = '{' || c = '}'

/-- The characters of a word of a plain scalar. Inside brackets a colon right before a bracket, a comma
or a question mark is refused. -/
def plainWord? (flow : Bool) : List Char → Option (List Char)
  | [] => some []
  | x :: rest =>
    if isSpace x then some []
    else if x = ':' ∧ flow ∧ rest.head?.any (fun y => isFlowMark y || y = '?') then none
    else if (x = ':' ∧ endsWord rest.head?) ∨ (flow ∧ isFlowMark x) then some []
    else (plainWord? flow rest).map (x :: ·)

/-- A plain scalar's text, the white space that was read last, and the cursor. -/
def plain? (flow : Bool) (indent : Int) : Nat → List Char → Gap → Cursor →
    Option (List Char × Gap × Cursor)
  | 0, _, _, _ => none
  | fuel + 1, text, gap, c =>
    if c.isDocumentMarker ∨ c.char? = some '#' then some (text, gap, c)
    else do
      let word ← plainWord? flow c.rest
      let (text, gap) := if word = [] then (text, gap) else (text ++ gap.text ++ word, {})
      let c := c.skip word.length
      if !(c.char?.any isSpace) then return (text, gap, c)
      else
        let (gap, c) ← gap.extend? indent (c.rest.length + 1) c
        if !flow && (c.column : Int) < indent then return (text, gap, c)
        else plain? flow indent fuel text gap c

/-! ## Quoted scalars -/

def hexValue? (digits : List Char) : Option Nat :=
  digits.foldl (fun acc d => do return (← acc) * 16 + (← Json.hexValue? d)) (some 0)

/-- What a letter after a backslash stands for, or how many hexadecimal digits follow it. -/
def escape? : Char → Option (Nat ⊕ Char)
  | '0' => some (.inr '\x00')
  | 'a' => some (.inr '\x07')
  | 'b' => some (.inr '\x08')
  | 't' | '\t' => some (.inr '\t')
  | 'n' => some (.inr '\n')
  | 'v' => some (.inr '\x0b')
  | 'f' => some (.inr '\x0c')
  | 'r' => some (.inr '\r')
  | 'e' => some (.inr '\x1b')
  | ' ' => some (.inr ' ')
  | '"' => some (.inr '"')
  | '/' => some (.inr '/')
  | '\\' => some (.inr '\\')
  | 'N' => some (.inr '\u0085')
  | '_' => some (.inr '\u00a0')
  | 'L' => some (.inr '\u2028')
  | 'P' => some (.inr '\u2029')
  | 'x' => some (.inl 2)
  | 'u' => some (.inl 4)
  | 'U' => some (.inl 8)
  | _ => none

/-- The character that an escape stands for, and the length of the escape with its backslash. -/
def escaped? (afterBackslash : List Char) : Option (Char × Nat) :=
  match afterBackslash with
  | [] => none
  | x :: rest =>
    match escape? x with
    | none => none
    | some (.inr y) => some (y, 2)
    | some (.inl n) => do
      let digits := rest.take n
      if digits.length < n then none
      else
        let value ← hexValue? digits
        if (0xD800 ≤ value ∧ value ≤ 0xDFFF) ∨ 0x10FFFF < value then none
        else return (Char.ofNat value, n + 2)

/-- A word of a quoted scalar: its characters, whether it was ended by a line end that is escaped, and
the cursor. -/
def quotedWord? (single : Bool) : Nat → List Char → Cursor → Option (List Char × Bool × Cursor)
  | 0, _, _ => none
  | fuel + 1, text, c =>
    match c.rest with
    | [] => some (text, false, c)
    | x :: rest =>
      if isSpace x then some (text, false, c)
      else if single then
        if x = '\'' then
          if rest.head? = some '\'' then quotedWord? single fuel (text ++ ['\'']) (c.skip 2)
          else some (text, false, c)
        else quotedWord? single fuel (text ++ [x]) (c.skip 1)
      else if x = '"' then some (text, false, c)
      else if x = '\\' then
        if rest.head?.any isBreak then some (text, true, (c.skip 1).skipBreak)
        else do
          let (y, n) ← escaped? rest
          quotedWord? single fuel (text ++ [y]) (c.skip n)
      else quotedWord? single fuel (text ++ [x]) (c.skip 1)

def quoted? (single : Bool) : Nat → List Char → Cursor → Option (List Char × Cursor)
  | 0, _, _ => none
  | fuel + 1, text, c => do
    if c.isDocumentMarker ∨ c.rest = [] then none
    else
      let (word, joined, c) ← quotedWord? single (c.rest.length + 1) [] c
      let text := text ++ word
      if c.char? = some (if single then '\'' else '"') then return (text, c.skip 1)
      else
        let (gap, c) ← Gap.extend? 0 (c.rest.length + 1) { broken := joined } c
        quoted? single fuel (text ++ gap.text) c

/-! ## Blocks -/

inductive Chomping where
  | strip
  | clip
  | keep
  deriving DecidableEq, Repr

/-- The marks behind a block's indicator: chomping and the indentation, in either order. -/
def blockHeader? (c : Cursor) : Option (Chomping × Option Nat × Cursor) :=
  let chomping (x : Char) : Option Chomping :=
    if x = '+' then some .keep else if x = '-' then some .strip else none
  let digit (c : Cursor) : Option (Option Nat × Cursor) :=
    match c.char? with
    | some x =>
      if x.isDigit then if x = '0' then none else some (some (Decimal.digitValue x), c.skip 1)
      else some (none, c)
    | none => some (none, c)
  match c.char?.bind chomping with
  | some how => (digit (c.skip 1)).map fun (n, c) => (how, n, c)
  | none => do
    let (n, c) ← digit c
    match n, c.char?.bind chomping with
    | some _, some how => return (how, n, c.skip 1)
    | _, _ => return (.clip, n, c)

/-- Empty lines and the indentation after them. Without a known indentation the widest line of blanks is
noted. A tab in the indentation is refused. -/
def blockBreaks? (indent : Option Nat) : Nat → Nat → List Char → Cursor →
    Option (Nat × List Char × Cursor)
  | 0, _, _, _ => none
  | fuel + 1, widest, breaks, c =>
    let spaces := (c.rest.takeWhile (· = ' ')).length
    let c := c.skip (match indent with
      | some n => min spaces (n - c.column)
      | none => spaces)
    let widest := max widest c.column
    if c.char? = some '\t' ∧ indent.all (c.column < ·) then none
    else if c.char?.any isBreak then
      let (b, c) := c.takeBreak
      blockBreaks? indent fuel widest (breaks ++ b) c
    else some (widest, breaks, c)

/-- The lines of a block. `last` is the end of the line before, `breaks` the empty lines after it. -/
def blockLines? (literal : Bool) (indent : Nat) : Nat → List Char → List Char → List Char → Bool →
    Cursor → Option (List Char × List Char × List Char × Cursor)
  | 0, _, _, _, _, _ => none
  | fuel + 1, text, last, breaks, wasBlank, c =>
    if c.column = indent ∧ c.rest ≠ [] then do
      let blank := c.char?.any isBlank
      let joint :=
        if !literal && last = ['\n'] && !wasBlank && !blank then (if breaks = [] then [' '] else [])
        else last
      let line := c.rest.takeWhile (!isBreak ·)
      let (last, c) := (c.skip line.length).takeBreak
      let text := text ++ joint ++ breaks ++ line
      let (_, breaks, c) ← blockBreaks? (some indent) (c.rest.length + 1) 0 [] c
      blockLines? literal indent fuel text last breaks blank c
    else some (text, last, breaks, c)

/-- A block after its indicator, inside a collection whose indentation is `parent`. -/
def block? (literal : Bool) (parent : Int) (c : Cursor) : Option (List Char × Cursor) := do
  let (chomping, increment, c) ← blockHeader? c
  let c ← c.finishLine?
  let given := increment.map fun n => (if 0 ≤ parent then parent.toNat else 0) + n
  let (widest, breaks, c) ← blockBreaks? given (c.rest.length + 1) 0 [] c
  let indent := given.getD (max (max widest (parent + 1).toNat) 1)
  let (text, last, breaks, c) ← blockLines? literal indent (c.rest.length + 1) [] [] breaks false c
  let tail := match chomping with
    | .strip => []
    | .clip => last
    | .keep => last ++ breaks
  return (text ++ tail, c)

end DecodePipeline.Yaml
