import DecodePipeline.Shell.Syntax

/-!
Reading the text of a script. A script is read line by line; text that cannot be read becomes a command of
its own, so that what stands before it still runs. `fuel` bounds the nesting and is taken from the length of the text.
-/

namespace DecodePipeline.Shell

structure Problem where
  line : Nat
  message : String
  deriving DecidableEq, Repr

/-- What is still to be read, and how many line feeds the whole text has. -/
structure Cursor where
  rest : List Char
  lineFeeds : Nat

namespace Cursor

def ofText (text : List Char) : Cursor := ⟨text, text.count '\n'⟩

/-- The number of the line that is being read. -/
def line (c : Cursor) : Nat := c.lineFeeds - c.rest.count '\n' + 1

end Cursor

abbrev Reading := StateT Cursor (Except Problem)

namespace Reading

def rest : Reading (List Char) := do return (← get).rest

def skip (n : Nat) : Reading Unit := modify fun c => { c with rest := c.rest.drop n }

def drop (f : List Char → List Char) : Reading Unit := modify fun c => { c with rest := f c.rest }

def fail {α : Type} (message : String) : Reading α := do
  throw ⟨(← get).line, message⟩

end Reading

/-! ## Characters and tokens -/

def isOperator (c : Char) : Bool := [';', '&', '|', '<', '>', '(', ')'].contains c

def isMeta (c : Char) : Bool := c = ' ' || c = '\t' || c = '\n' || isOperator c

def isNameStart (c : Char) : Bool := c.isAlpha || c = '_'

def isNameChar (c : Char) : Bool := c.isAlphanum || c = '_'

/-- Blanks, joined lines and a comment. -/
def dropBlanks : List Char → List Char
  | ' ' :: r | '\t' :: r => dropBlanks r
  | '\\' :: '\n' :: r => dropBlanks r
  | '#' :: r => r.dropWhile (· ≠ '\n')
  | r => r

/-- Blanks, comments and line feeds. -/
def dropSpace (inComment : Bool) : List Char → List Char
  | [] => []
  | '\n' :: r => dropSpace false r
  | '\\' :: '\n' :: r => dropSpace false r
  | c :: r =>
    if inComment then dropSpace true r
    else if c = ' ' ∨ c = '\t' then dropSpace false r
    else if c = '#' then dropSpace true r
    else c :: r

def reservedWords : List String :=
  ["if", "then", "elif", "else", "fi", "for", "while", "until", "do", "done", "case", "esac", "\x7b",
    "\x7d", "!"]

/-- The reserved word that comes next. -/
def reserved? (cs : List Char) : Option String :=
  reservedWords.find? (· = String.ofList (cs.takeWhile fun c => !isMeta c))

/-- Words that cannot begin a command. -/
def closesList (word : String) : Bool :=
  ["then", "elif", "else", "fi", "do", "done", "esac", "\x7d"].contains word

/-- Whether a list of commands ends here. -/
def atListEnd : List Char → Bool
  | [] | ')' :: _ | ';' :: ';' :: _ => true
  | cs => (reserved? cs).any closesList

def tokenLabel : List Char → String
  | [] => "end of file"
  | '\n' :: _ => "newline"
  | ';' :: ';' :: _ => "\";;\""
  | '&' :: '&' :: _ => "\"&&\""
  | '|' :: '|' :: _ => "\"||\""
  | c :: cs =>
    if c = '<' ∨ c = '>' then "redirection"
    else if isOperator c then "\"" ++ c.toString ++ "\""
    else
      match reserved? (c :: cs) with
      | some word => "\"" ++ word ++ "\""
      | none => "word"

namespace Reading

def unexpected {α : Type} (expecting : Option String) : Reading α := do
  let hint := match expecting with
    | some word => " (expecting \"" ++ word ++ "\")"
    | none => ""
  fail ("Syntax error: " ++ tokenLabel (← rest) ++ " unexpected" ++ hint)

def expectReserved (word : String) : Reading Unit := do
  drop (dropSpace false)
  if reserved? (← rest) = some word then skip word.length else unexpected (some word)

def expectChar (c : Char) : Reading Unit := do
  drop (dropSpace false)
  match ← rest with
  | d :: _ => if d = c then skip 1 else unexpected (some c.toString)
  | [] => unexpected (some c.toString)

end Reading

/-- What the parts that are being read stand in. -/
inductive Context where
  | bare
  | quoted
  | braced (quoted : Bool)
  | expression (depth : Nat)
  | document
  deriving DecidableEq, Repr

namespace Context

def isQuoted : Context → Bool
  | quoted | expression _ | document => true
  | braced q => q
  | bare => false

def endsAt (context : Context) (cs : List Char) : Bool :=
  match context, cs with
  | bare, c :: _ => isMeta c
  | bare, [] => true
  | quoted, '"' :: _ => true
  | braced _, '\x7d' :: _ => true
  | expression 0, ')' :: _ => true
  | document, [] => true
  | _, _ => false

/-- A character that stands for itself. -/
def isPlain (context : Context) (c : Char) : Bool :=
  !(c = '$' || c = '\\' || c = '"' || c = '\'' || c = '\x60' || c = '(' || c = ')') &&
    !context.endsAt [c]

/-- Whether a backslash before a character takes its meaning away and is not kept. -/
def escapes (context : Context) (c : Char) : Bool :=
  match context with
  | bare | braced false => true
  | braced true => ['$', '\x60', '"', '\\', '\x7d'].contains c
  | document => ['$', '\x60', '\\'].contains c
  | _ => ['$', '\x60', '"', '\\'].contains c

def unfinished : Context → String
  | braced _ => "Syntax error: Missing '\x7d'"
  | expression _ => "Syntax error: Missing '))'"
  | _ => "Syntax error: Unterminated quoted string"

end Context

/-- The text between grave accents, up to the closing one: what it stands for, and the rest. -/
def graveText : List Char → Option (List Char × List Char)
  | [] => none
  | '\x60' :: r => some ([], r)
  | '\\' :: c :: r =>
    (graveText r).map fun (inside, rest) =>
      (if c = '\x60' ∨ c = '\\' ∨ c = '$' then c :: inside else '\\' :: c :: inside, rest)
  | c :: r => (graveText r).map fun (inside, rest) => (c :: inside, rest)

/-- Adjacent characters as one part. -/
def textPart (cs : List Char) (quoted : Bool) : Part := .text (String.ofList cs) quoted

def fallback? : Char → Option Fallback
  | '-' => some .use
  | '=' => some .assign
  | '?' => some .fail
  | '+' => some .instead
  | _ => none

/-- One way to write a redirection: the sign, and what it means for which descriptor. -/
def redirectionSigns : List (List Char × Direction × Nat) :=
  [(['>', '>'], .append, 1), (['>', '&'], .duplicate, 1), (['<', '&'], .duplicate, 0),
    (['>', '|'], .write, 1), (['>'], .write, 1), (['<', '<'], .document, 0), (['<'], .read, 0)]

/-- A redirection that begins here: its descriptor and direction, and the length of the sign. -/
def redirection? (cs : List Char) : Option (Nat × Direction × Nat) := do
  let digits := cs.takeWhile Char.isDigit
  let (sign, direction, usual) ← redirectionSigns.find? fun s => s.1.isPrefixOf (cs.drop digits.length)
  let descriptor := if digits.isEmpty then usual else digits.foldl (fun n c => n * 10 + (c.toNat - 48)) 0
  return (descriptor, direction, digits.length + sign.length)

/-- A name followed by an equals sign. -/
def assignedName? (cs : List Char) : Option (List Char) :=
  let name := cs.takeWhile isNameChar
  match name.head?, cs.drop name.length with
  | some c, '=' :: _ => if isNameStart c then some name else none
  | _, _ => none

/-- The lines of a document up to the one that ends it, and what follows that. `unindent` drops tabs in
front of lines. -/
def documentLines (unindent : Bool) (ending : List Char) : Nat → List Char → List Char × List Char
  | 0, cs => ([], cs)
  | fuel + 1, cs =>
    if cs.isEmpty then ([], [])
    else
      let line := cs.takeWhile (· ≠ '\n')
      let rest := cs.drop (line.length + 1)
      let line := if unindent then line.dropWhile (· = '\t') else line
      if line = ending then ([], rest)
      else
        let (more, after) := documentLines unindent ending fuel rest
        (line ++ '\n' :: more, after)

structure SimpleParts where
  assignments : List (String × Word) := []
  words : List Word := []
  redirections : List Redirection := []

/-! ## Words -/

namespace Reading

mutual

/-- Parts up to the end of their context. -/
def parts : Nat → Context → Reading (List Part)
  | 0, _ => fail "Syntax error"
  | fuel + 1, context => do
    let cs ← rest
    if context.endsAt cs then return []
    match cs with
    | [] => fail context.unfinished
    | '\\' :: '\n' :: _ => skip 2; parts fuel context
    | '\\' :: c :: _ =>
      skip 2
      let kept := if context.escapes c then [c] else ['\\', c]
      return textPart kept true :: (← parts fuel context)
    | ['\\'] => skip 1; return textPart ['\\'] true :: (← parts fuel context)
    | '\'' :: _ =>
      skip 1
      if context.isQuoted then return textPart ['\''] true :: (← parts fuel context)
      else
        let inside := (← rest).takeWhile (· ≠ '\'')
        skip inside.length
        if (← rest).isEmpty then fail Context.quoted.unfinished
        skip 1
        return textPart inside true :: (← parts fuel context)
    | '"' :: _ =>
      skip 1
      if context = .document then return textPart ['"'] true :: (← parts fuel context)
      let inside ← parts fuel .quoted
      skip 1
      let inside := if inside.isEmpty then [textPart [] true] else inside
      return inside ++ (← parts fuel context)
    | '\x60' :: _ =>
      skip 1
      match graveText (← rest) with
      | none => fail "Syntax error: EOF in backquote substitution"
      | some (inside, after) =>
        let (script, _) ← liftM ((commands fuel).run (Cursor.ofText inside))
        drop fun _ => after
        return .output script context.isQuoted :: (← parts fuel context)
    | '$' :: _ =>
      skip 1
      let p ← dollar fuel context.isQuoted
      return p :: (← parts fuel context)
    | '(' :: _ =>
      skip 1
      let inner := match context with
        | .expression depth => .expression (depth + 1)
        | other => other
      return textPart ['('] context.isQuoted :: (← parts fuel inner)
    | ')' :: _ =>
      skip 1
      let inner := match context with
        | .expression depth => .expression (depth - 1)
        | other => other
      return textPart [')'] context.isQuoted :: (← parts fuel inner)
    | c :: r =>
      let run := c :: r.takeWhile context.isPlain
      skip run.length
      return textPart run context.isQuoted :: (← parts fuel context)

/-- What follows a dollar sign. -/
def dollar : Nat → Bool → Reading Part
  | 0, _ => fail "Syntax error"
  | fuel + 1, quoted => do
    match ← rest with
    | '(' :: '(' :: _ =>
      skip 2
      let inside ← parts fuel (.expression 0)
      match ← rest with
      | ')' :: ')' :: _ => skip 2; return .arithmetic inside quoted
      | _ => fail (Context.expression 0).unfinished
    | '(' :: _ =>
      skip 1
      let script ← commands fuel
      expectChar ')'
      return .output script quoted
    | '\x7b' :: '#' :: '\x7d' :: _ => skip 3; return .parameter "#" .value quoted
    | '\x7b' :: '#' :: r =>
      let name := r.takeWhile isNameChar
      skip (2 + name.length)
      expectChar '\x7d'
      return .parameter (String.ofList name) .length quoted
    | '\x7b' :: r =>
      let name := r.takeWhile isNameChar
      let name := if name.isEmpty then r.take 1 else name
      skip (1 + name.length)
      let use ← braceUse fuel quoted
      skip 1
      return .parameter (String.ofList name) use quoted
    | c :: r =>
      if isNameStart c then
        let name := c :: r.takeWhile isNameChar
        skip name.length
        return .parameter (String.ofList name) .value quoted
      else if c.isDigit || ['@', '*', '#', '?', '$', '!', '-'].contains c then
        skip 1
        return .parameter c.toString .value quoted
      else return textPart ['$'] quoted
    | [] => return textPart ['$'] quoted

/-- What stands between a name and the closing brace. -/
def braceUse : Nat → Bool → Reading Use
  | 0, _ => fail "Syntax error"
  | fuel + 1, quoted => do
    match ← rest with
    | '\x7d' :: _ => return .value
    | '#' :: '#' :: _ => skip 2; return .without .longestFront (← parts fuel (.braced false))
    | '#' :: _ => skip 1; return .without .shortestFront (← parts fuel (.braced false))
    | '%' :: '%' :: _ => skip 2; return .without .longestBack (← parts fuel (.braced false))
    | '%' :: _ => skip 1; return .without .shortestBack (← parts fuel (.braced false))
    | ':' :: c :: _ =>
      match fallback? c with
      | some kind => skip 2; return .fallback kind true (← parts fuel (.braced quoted))
      | none => fail "Bad substitution"
    | c :: _ =>
      match fallback? c with
      | some kind => skip 1; return .fallback kind false (← parts fuel (.braced quoted))
      | none => fail "Bad substitution"
    | [] => fail (Context.braced false).unfinished

def word : Nat → Reading Word
  | 0 => fail "Syntax error"
  | fuel + 1 => do
    drop dropBlanks
    let found ← parts fuel .bare
    if found.isEmpty then unexpected none else return found

/-- The target of a redirection. A document begins on the next line and is taken out of the text. -/
def target : Nat → Direction → Reading Word
  | 0, _ => fail "Syntax error"
  | fuel + 1, direction => do
    if direction ≠ .document then return (← word fuel)
    let unindent := (← rest).head? = some '-'
    if unindent then skip 1
    drop dropBlanks
    let written := (← rest).takeWhile fun c => !isMeta c
    skip written.length
    let isQuote (c : Char) : Bool := c = '\'' || c = '"' || c = '\\'
    let ending := written.filter (!isQuote ·)
    let line := (← rest).takeWhile (· ≠ '\n')
    let (body, after) := documentLines unindent ending ((← rest).length) ((← rest).drop (line.length + 1))
    drop fun _ => line ++ '\n' :: after
    if written.any isQuote then return [textPart body true]
    let (found, _) ← liftM ((parts fuel .document).run (Cursor.ofText body))
    return found

/-- Commands, of which there must be one. -/
def block : Nat → Reading (List Command)
  | 0 => fail "Syntax error"
  | fuel + 1 => do
    let found ← commands fuel
    if found.isEmpty && !(← rest).isEmpty then unexpected none else return found

/-- Commands up to a word or sign that ends a list. -/
def commands : Nat → Reading (List Command)
  | 0 => fail "Syntax error"
  | fuel + 1 => do
    drop (dropSpace false)
    if atListEnd (← rest) then return []
    let c ← andOr fuel
    drop dropBlanks
    match ← rest with
    | ';' :: ';' :: _ => return [c]
    | ';' :: _ => skip 1; return c :: (← commands fuel)
    | '&' :: _ => skip 1; return .background c :: (← commands fuel)
    | '\n' :: _ => return c :: (← commands fuel)
    | _ => return [c]

def commandLine : Nat → Reading (List Command)
  | 0 => fail "Syntax error"
  | fuel + 1 => do
    drop dropBlanks
    if (← rest).head?.all (· = '\n') then return []
    let c ← andOr fuel
    drop dropBlanks
    match ← rest with
    | ';' :: ';' :: _ => unexpected none
    | ';' :: _ => skip 1; return c :: (← commandLine fuel)
    | '&' :: _ => skip 1; return .background c :: (← commandLine fuel)
    | '\n' :: _ | [] => return [c]
    | _ => unexpected none

def andOr : Nat → Reading Command
  | 0 => fail "Syntax error"
  | fuel + 1 => do
    let first ← pipeline fuel
    andOrRest fuel first

def andOrRest : Nat → Command → Reading Command
  | 0, _ => fail "Syntax error"
  | fuel + 1, first => do
    drop dropBlanks
    match ← rest with
    | '&' :: '&' :: _ =>
      skip 2
      drop (dropSpace false)
      let second ← pipeline fuel
      andOrRest fuel (.both first second)
    | '|' :: '|' :: _ =>
      skip 2
      drop (dropSpace false)
      let second ← pipeline fuel
      andOrRest fuel (.either first second)
    | _ => return first

def pipeline : Nat → Reading Command
  | 0 => fail "Syntax error"
  | fuel + 1 => do
    drop dropBlanks
    if reserved? (← rest) = some "!" then
      skip 1
      return .negated (← pipeline fuel)
    match ← stages fuel with
    | [single] => return single
    | several => return .pipeline several

def stages : Nat → Reading (List Command)
  | 0 => fail "Syntax error"
  | fuel + 1 => do
    let c ← command fuel
    drop dropBlanks
    match ← rest with
    | '|' :: '|' :: _ => return [c]
    | '|' :: _ =>
      skip 1
      drop (dropSpace false)
      return c :: (← stages fuel)
    | _ => return [c]

def command : Nat → Reading Command
  | 0 => fail "Syntax error"
  | fuel + 1 => do
    drop dropBlanks
    let line := (← get).line
    match ← compound? fuel with
    | none => simple fuel line {}
    | some c =>
      match ← redirections fuel with
      | [] => return c
      | rs => return .redirected line c rs

/-- A command that begins with a reserved word or a parenthesis. -/
def compound? : Nat → Reading (Option Command)
  | 0 => fail "Syntax error"
  | fuel + 1 => do
    match ← rest with
    | '(' :: _ =>
      skip 1
      let body ← block fuel
      expectChar ')'
      return some (.subshell body)
    | cs =>
      match reserved? cs with
      | some "if" => skip 2; return some (← choice fuel)
      | some "while" => skip 5; return some (← loop fuel false)
      | some "until" => skip 5; return some (← loop fuel true)
      | some "for" => skip 3; return some (← eachLoop fuel)
      | some "case" => skip 4; return some (← selection fuel)
      | some word =>
        if word = "\x7b" then
          skip 1
          let body ← block fuel
          expectReserved "\x7d"
          return some (.group body)
        else unexpected none
      | none => return none

def choice : Nat → Reading Command
  | 0 => fail "Syntax error"
  | fuel + 1 => do
    let test ← block fuel
    expectReserved "then"
    let body ← block fuel
    drop (dropSpace false)
    match reserved? (← rest) with
    | some "elif" => skip 4; return .choice test body [← choice fuel]
    | some "else" =>
      skip 4
      let otherwise ← block fuel
      expectReserved "fi"
      return .choice test body otherwise
    | _ =>
      expectReserved "fi"
      return .choice test body []

def loop : Nat → Bool → Reading Command
  | 0, _ => fail "Syntax error"
  | fuel + 1, untilTrue => do
    let test ← block fuel
    expectReserved "do"
    let body ← block fuel
    expectReserved "done"
    return .repeated untilTrue test body

def eachLoop : Nat → Reading Command
  | 0 => fail "Syntax error"
  | fuel + 1 => do
    drop dropBlanks
    let name := (← rest).takeWhile isNameChar
    if !name.head?.any isNameStart then fail "Syntax error: Bad for loop variable"
    skip name.length
    drop (dropSpace false)
    let values ←
      if ((← rest).takeWhile fun c => !isMeta c) = ['i', 'n'] then do
        skip 2
        let values ← words fuel
        pure (some values)
      else pure none
    drop dropBlanks
    if (← rest).head? = some ';' then skip 1
    expectReserved "do"
    let body ← block fuel
    expectReserved "done"
    return .each (String.ofList name) values body

def words : Nat → Reading (List Word)
  | 0 => fail "Syntax error"
  | fuel + 1 => do
    drop dropBlanks
    match ← rest with
    | [] => return []
    | c :: _ =>
      if isMeta c then return []
      else
        let first ← word fuel
        return first :: (← words fuel)

def selection : Nat → Reading Command
  | 0 => fail "Syntax error"
  | fuel + 1 => do
    let subject ← word fuel
    drop (dropSpace false)
    if ((← rest).takeWhile fun c => !isMeta c) = ['i', 'n'] then skip 2 else unexpected (some "in")
    return .select subject (← branches fuel)

def branches : Nat → Reading (List (List Word × List Command))
  | 0 => fail "Syntax error"
  | fuel + 1 => do
    drop (dropSpace false)
    if reserved? (← rest) = some "esac" then
      skip 4
      return []
    if (← rest).head? = some '(' then skip 1
    let patterns ← alternatives fuel
    let body ← commands fuel
    drop (dropSpace false)
    match ← rest with
    | ';' :: ';' :: _ => skip 2; return (patterns, body) :: (← branches fuel)
    | cs =>
      if reserved? cs ≠ some "esac" then unexpected (some ";;")
      skip 4
      return [(patterns, body)]

/-- The patterns of one branch and the parenthesis behind them. -/
def alternatives : Nat → Reading (List Word)
  | 0 => fail "Syntax error"
  | fuel + 1 => do
    let first ← word fuel
    drop dropBlanks
    match ← rest with
    | '|' :: _ => skip 1; return first :: (← alternatives fuel)
    | _ =>
      expectChar ')'
      return [first]

def redirections : Nat → Reading (List Redirection)
  | 0 => fail "Syntax error"
  | fuel + 1 => do
    drop dropBlanks
    match redirection? (← rest) with
    | none => return []
    | some (descriptor, direction, length) =>
      skip length
      let target ← target fuel direction
      return .mk descriptor direction target :: (← redirections fuel)

/-- Assignments, words and redirections, or the definition of a function. -/
def simple : Nat → Nat → SimpleParts → Reading Command
  | 0, _, _ => fail "Syntax error"
  | fuel + 1, line, found => do
    drop dropBlanks
    let cs ← rest
    match redirection? cs with
    | some (descriptor, direction, length) =>
      skip length
      let target ← target fuel direction
      simple fuel line { found with redirections := found.redirections ++ [.mk descriptor direction target] }
    | none =>
      match found.words, cs with
      | [[.text name false]], '(' :: _ =>
        skip 1
        expectChar ')'
        drop (dropSpace false)
        return .define name (← command fuel)
      | _, _ =>
        if cs.head?.all isMeta then
          if found.words.isEmpty && found.assignments.isEmpty && found.redirections.isEmpty then unexpected none
          else return .simple line found.assignments found.words found.redirections
        else
          match if found.words.isEmpty then assignedName? cs else none with
          | some name =>
            skip (name.length + 1)
            let value ← parts fuel .bare
            simple fuel line
              { found with assignments := found.assignments ++ [(String.ofList name, value)] }
          | none =>
            let next ← word fuel
            simple fuel line { found with words := found.words ++ [next] }

end

/-- All lines of a script. The first one that cannot be read is the last one. -/
def script : Nat → Cursor → List Command
  | 0, _ => []
  | fuel + 1, cursor =>
    let cursor := { cursor with rest := dropSpace false cursor.rest }
    if cursor.rest.isEmpty then []
    else
      match (commandLine (16 * cursor.rest.length + 64)).run cursor with
      | .ok (line, after) => line ++ script fuel after
      | .error problem => [.malformed problem.line problem.message]

end Reading

def readScript (text : String) : List Command :=
  Reading.script (text.length + 1) (Cursor.ofText text.toList)

end DecodePipeline.Shell
