import DecodePipeline.Yaml.Tag

/-!
The tokens of a YAML text. Collections that are written by indentation get tokens for their beginning and
end, and a simple key, which is known as one only at its colon, gets a token in front of it.
-/

namespace DecodePipeline.Yaml

inductive Token where
  | directive (directive : Directive)
  | documentStart
  | documentEnd
  | blockSequenceStart
  | blockMappingStart
  | blockEnd
  | flowSequenceStart
  | flowSequenceEnd
  | flowMappingStart
  | flowMappingEnd
  | blockEntry
  | flowEntry
  | key
  | value
  | alias (name : String)
  | anchor (name : String)
  | tag (tag : Tag)
  | scalar (text : String) (style : Style)
  deriving DecidableEq, Repr

/-- A place that may turn out to be a simple key: which token it would stand in front of, where it is,
and whether nothing else can stand there. -/
structure SimpleKey where
  token : Nat
  index : Nat
  line : Nat
  column : Nat
  required : Bool

/-- The state between two tokens. `keys` has one place for each open bracket and one for the block
around them, the innermost first. -/
structure Lexer where
  cursor : Cursor
  tokens : List Token := []
  indent : Int := -1
  indents : List Int := []
  flow : Nat := 0
  keyAllowed : Bool := true
  keys : List (Option SimpleKey) := [none]

namespace Lexer

def inFlow (s : Lexer) : Bool := 0 < s.flow

def emit (s : Lexer) (t : Token) : Lexer := { s with tokens := s.tokens ++ [t] }

/-- Puts a token in front of the one with number `n`. -/
def insert (s : Lexer) (n : Nat) (t : Token) : Lexer :=
  { s with tokens := s.tokens.take n ++ t :: s.tokens.drop n }

def currentKey (s : Lexer) : Option SimpleKey := s.keys.head?.join

def withKey (s : Lexer) (key : Option SimpleKey) : Lexer := { s with keys := key :: s.keys.drop 1 }

/-- Gives up the current place of a simple key; where only a key can stand that is refused. -/
def dropKey? (s : Lexer) : Option Lexer :=
  if s.currentKey.any (·.required) then none else some (s.withKey none)

def saveKey? (s : Lexer) : Option Lexer :=
  if s.keyAllowed then
    s.dropKey?.map fun s => s.withKey (some
      { token := s.tokens.length, index := s.cursor.index, line := s.cursor.line,
        column := s.cursor.column, required := !s.inFlow && s.indent = s.cursor.column })
  else some s

/-- A simple key ends on its line and within 1024 characters. -/
def staleKeys? (s : Lexer) : Option Lexer := do
  let keys ← s.keys.mapM fun key =>
    match key with
    | none => some none
    | some k =>
      if k.line < s.cursor.line ∨ k.index + 1024 < s.cursor.index then
        if k.required then none else some none
      else some (some k)
  return { s with keys }

/-- Ends the block collections that are indented further than `column`. -/
def unroll (column : Int) (s : Lexer) : Lexer :=
  if s.inFlow then s
  else
    let closed := (s.indent :: s.indents).takeWhile (column < ·)
    let left := (s.indent :: s.indents).drop closed.length
    { s with
      tokens := s.tokens ++ closed.map fun _ => .blockEnd
      indent := left.head?.getD (-1)
      indents := left.drop 1 }

/-- Begins a block collection at a column, with its token in front of the one with number `n`. -/
def roll (s : Lexer) (column n : Nat) (t : Token) : Lexer :=
  if !s.inFlow && s.indent < column then
    { s with indent := column, indents := s.indent :: s.indents }.insert n t
  else s

def rollHere (s : Lexer) (t : Token) : Lexer := s.roll s.cursor.column s.tokens.length t

/-- Goes past white space, comments and line ends. At the beginning of a block line a tab is none. -/
def skipToToken : Nat → Lexer → Lexer
  | 0, s => s
  | fuel + 1, s =>
    let blank (x : Char) : Bool := x = ' ' || (x = '\t' && (s.inFlow || !s.keyAllowed))
    let c := (s.cursor.skipWhile blank).skipComment
    if c.char?.any isBreak then
      skipToToken fuel { s with cursor := c.skipBreak, keyAllowed := s.keyAllowed || !s.inFlow }
    else { s with cursor := c }

/-- Ends all block collections before a line that belongs to none. -/
def leaveBlocks? (s : Lexer) : Option Lexer :=
  (s.unroll (-1)).dropKey?.map fun s => { s with keyAllowed := false }

def mark (s : Lexer) (n : Nat) (t : Token) : Lexer := { s.emit t with cursor := s.cursor.skip n }

def openFlow? (s : Lexer) (t : Token) : Option Lexer :=
  s.saveKey?.map fun s =>
    { s with flow := s.flow + 1, keys := none :: s.keys, keyAllowed := true }.mark 1 t

def closeFlow? (s : Lexer) (t : Token) : Option Lexer :=
  s.dropKey?.map fun s =>
    { s with flow := s.flow - 1, keys := if s.inFlow then s.keys.drop 1 else s.keys
             keyAllowed := false }.mark 1 t

def flowEntry? (s : Lexer) : Option Lexer :=
  s.dropKey?.map fun s => { s with keyAllowed := true }.mark 1 .flowEntry

def blockEntry? (s : Lexer) : Option Lexer :=
  if !s.inFlow && !s.keyAllowed then none
  else
    (s.rollHere .blockSequenceStart).dropKey?.map fun s => { s with keyAllowed := true }.mark 1 .blockEntry

def key? (s : Lexer) : Option Lexer :=
  if !s.inFlow && !s.keyAllowed then none
  else
    (s.rollHere .blockMappingStart).dropKey?.map fun s => { s with keyAllowed := !s.inFlow }.mark 1 .key

def value? (s : Lexer) : Option Lexer :=
  match s.currentKey with
  | some k =>
    let s := (s.insert k.token .key).roll k.column k.token .blockMappingStart
    some ({ s.withKey none with keyAllowed := false }.mark 1 .value)
  | none =>
    if !s.inFlow && !s.keyAllowed then none
    else some ({ s.rollHere .blockMappingStart with keyAllowed := !s.inFlow }.mark 1 .value)

/-- The name behind the mark of an anchor or an alias. -/
def name? (s : Lexer) (token : String → Token) : Option Lexer := do
  let s ← s.saveKey?
  let name := (s.cursor.rest.drop 1).takeWhile isWord
  let cursor := s.cursor.skip (1 + name.length)
  let ends := endsWord cursor.char? ||
    cursor.char?.any (['?', ':', ',', ']', '\x7d', '%', '@', '\x60'].contains ·)
  if name = [] ∨ ¬ends then none
  else return { s.emit (token (String.ofList name)) with cursor, keyAllowed := false }

def tagToken? (s : Lexer) : Option Lexer := do
  let s ← s.saveKey?
  let (tag, cursor) ← tag? s.inFlow s.cursor
  return { s.emit (.tag tag) with cursor, keyAllowed := false }

def blockScalar? (s : Lexer) (literal : Bool) : Option Lexer := do
  let s ← s.dropKey?
  let (text, cursor) ← block? literal s.indent (s.cursor.skip 1)
  let style := if literal then Style.literal else .folded
  return { s.emit (.scalar (String.ofList text) style) with cursor, keyAllowed := true }

def quotedScalar? (s : Lexer) (single : Bool) : Option Lexer := do
  let s ← s.saveKey?
  let (text, cursor) ← quoted? single (s.cursor.rest.length + 1) [] (s.cursor.skip 1)
  return { s.emit (.scalar (String.ofList text) .quoted) with cursor, keyAllowed := false }

def plainScalar? (s : Lexer) : Option Lexer := do
  let s ← s.saveKey?
  let (text, gap, cursor) ← plain? s.inFlow (s.indent + 1) (s.cursor.rest.length + 1) [] {} s.cursor
  return { s.emit (.scalar (String.ofList text) .plain) with cursor, keyAllowed := gap.broken }

/-- The marks that a plain scalar cannot begin with. -/
def isIndicator (c : Char) : Bool :=
  ['-', '?', ':', ',', '[', ']', '\x7b', '\x7d', '#', '&', '*', '!', '|', '>', '\'', '"', '%', '@',
    '\x60'].contains c

/-- One token from the front of the text, which is at no white space. -/
def next? (s : Lexer) (x : Char) : Option Lexer :=
  let c := s.cursor
  let ends := endsWord (c.ahead? 1)
  if c.column = 0 ∧ x = '%' then do
    let s ← s.leaveBlocks?
    let (d, cursor) ← directive? c
    return { s.emit (.directive d) with cursor }
  else if c.isMarker ['-', '-', '-'] then s.leaveBlocks?.map (·.mark 3 .documentStart)
  else if c.isMarker ['.', '.', '.'] then s.leaveBlocks?.map (·.mark 3 .documentEnd)
  else if x = '[' then s.openFlow? .flowSequenceStart
  else if x = '\x7b' then s.openFlow? .flowMappingStart
  else if x = ']' then s.closeFlow? .flowSequenceEnd
  else if x = '\x7d' then s.closeFlow? .flowMappingEnd
  else if x = ',' then s.flowEntry?
  else if x = '-' ∧ ends then s.blockEntry?
  else if x = '?' ∧ (s.inFlow ∨ ends) then s.key?
  else if x = ':' ∧ (s.inFlow ∨ ends) then s.value?
  else if x = '*' then s.name? .alias
  else if x = '&' then s.name? .anchor
  else if x = '!' then s.tagToken?
  else if x = '|' ∧ ¬s.inFlow then s.blockScalar? true
  else if x = '>' ∧ ¬s.inFlow then s.blockScalar? false
  else if x = '\'' then s.quotedScalar? true
  else if x = '"' then s.quotedScalar? false
  else if (!isIndicator x && !isSpace x) || (x = '-' && !(c.ahead? 1).any isBlank)
      || (!s.inFlow && (x = '?' || x = ':') && !ends) then
    s.plainScalar?
  else none

def run? : Nat → Lexer → Option (List Token)
  | 0, _ => none
  | fuel + 1, s => do
    let s ← (skipToToken (s.cursor.rest.length + 1) s).staleKeys?
    let s := s.unroll s.cursor.column
    match s.cursor.char? with
    | none => return (← (s.unroll (-1)).dropKey?).tokens
    | some x => run? fuel (← s.next? x)

end Lexer

def tokens? (text : String) : Option (List Token) :=
  let cursor := Cursor.ofText text.toList
  if cursor.rest.all isAllowed then Lexer.run? (cursor.rest.length + 1) { cursor } else none

end DecodePipeline.Yaml
