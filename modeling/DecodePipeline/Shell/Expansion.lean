import DecodePipeline.Glob.Search
import DecodePipeline.Shell.State

/-!
From words to fields. The parts of a word are replaced by what they stand for, what stands outside of
quotes is split, and fields with pattern signs become the paths they stand for, if there are any. Every
character remembers whether it was quoted.
-/

namespace DecodePipeline.Shell

/-- A character and whether it was quoted. -/
abbrev Marked := Char × Bool

/-- Fields that are finished, and the one that is being put together. -/
structure Fields where
  finished : List (List Marked) := []
  current : Option (List Marked) := none

namespace Fields

def add (fs : Fields) (quoted : Bool) (cs : List Char) : Fields :=
  if cs.isEmpty && !quoted then fs
  else { fs with current := some (fs.current.getD [] ++ cs.map (·, quoted)) }

def cut (fs : Fields) : Fields :=
  match fs.current with
  | none => fs
  | some field => ⟨fs.finished ++ [field], none⟩

/-- Ends a field here even if nothing is in it. -/
def separate (fs : Fields) : Fields :=
  ⟨fs.finished ++ [fs.current.getD []], none⟩

/-- Adds a value that is split at separators: blanks only part fields, other ones end them. -/
def addSplit (separators : List Char) (fs : Fields) : List Char → Fields
  | [] => fs
  | c :: cs =>
    if separators.contains c then
      if c = ' ' ∨ c = '\t' ∨ c = '\n' then addSplit separators fs.cut cs
      else addSplit separators fs.separate cs
    else addSplit separators (fs.add false [c]) cs

def all (fs : Fields) : List (List Marked) := fs.cut.finished

end Fields

def unmark (field : List Marked) : String := String.ofList (field.map (·.1))

/-! ## Patterns -/

/-- The characters between brackets: those up to the closing one, which is not the first, and the rest. -/
def bracketed? : List Marked → Option (List Marked × List Marked)
  | [] => none
  | c :: rest =>
    match rest.dropWhile (· ≠ (']', false)) with
    | [] => none
    | _ :: after => some (c :: rest.takeWhile (· ≠ (']', false)), after)

/-- The pattern that a field writes; what was quoted stands for itself. -/
def patternOf : Nat → List Marked → Glob.Pattern
  | _, [] => []
  | 0, field => field.map fun c => .char c.1
  | fuel + 1, (c, quoted) :: rest =>
    if quoted then .char c :: patternOf fuel rest
    else
      match c with
      | '*' => .anyChars :: patternOf fuel rest
      | '?' => .anyChar :: patternOf fuel rest
      | '[' =>
        let negated := rest.head? = some ('!', false) ∨ rest.head? = some ('^', false)
        match bracketed? (if negated then rest.drop 1 else rest) with
        | none => .char '[' :: patternOf fuel rest
        | some (inside, after) =>
          let spans := Glob.Span.list (inside.map (·.1))
          (if negated then .outside spans else .within spans) :: patternOf fuel after
      | _ => .char c :: patternOf fuel rest

def pattern (field : List Marked) : Glob.Pattern := patternOf field.length field

/-- A value without the shortest or longest end that a pattern accepts. -/
def Cut.apply (cut : Cut) (p : Glob.Pattern) (value : List Char) : List Char :=
  let lengths := List.range (value.length + 1)
  match cut with
  | shortestFront =>
    value.drop ((lengths.find? fun n => p.accepts (value.take n)).getD 0)
  | longestFront =>
    value.drop ((lengths.reverse.find? fun n => p.accepts (value.take n)).getD 0)
  | shortestBack =>
    value.take ((lengths.reverse.find? fun n => p.accepts (value.drop n)).getD value.length)
  | longestBack =>
    value.take ((lengths.find? fun n => p.accepts (value.drop n)).getD value.length)

/-! ## Parts -/

/-- The state, what has been put together so far, or why the shell has to end. -/
abbrev Expanding := Except String (State × Fields)

def troubleText (expression : String) : Arithmetic.Trouble → String
  | .divisionByZero => "arithmetic expression: division by zero: \"" ++ expression ++ "\""
  | .notANumber text => "Illegal number: " ++ text

/-- Adds the value of something; outside of quotes it is split. -/
def addValue (s : State) (quoted : Bool) (value : String) (fs : Fields) : Fields :=
  if quoted then fs.add true value.toList else fs.addSplit s.separators value.toList

/-- Adds all arguments: between quotes one field each, or one for all. -/
def addArguments (s : State) (each quoted : Bool) (fs : Fields) : Fields :=
  match quoted, each with
  | true, false =>
    let joint := match s.separators with
      | c :: _ => c.toString
      | [] => ""
    fs.add true (joint.intercalate s.arguments).toList
  | _, _ =>
    match s.arguments with
    | [] => fs
    | first :: more =>
      more.foldl (fun fs a => addValue s quoted a fs.cut) (addValue s quoted first fs)

/-- The fields of parts; `depth` bounds how deep words stand in words. -/
def expandPart : Nat → State → Fields → Part → Expanding
  | 0, _, _, _ => .error "Bad substitution"
  | depth + 1, s, fs, part =>
    let inner (s : State) (parts : List Part) : Except String (State × List Marked) := do
      let (s, fs) ← parts.foldlM (fun (s, fs) p => expandPart depth s fs p) (s, {})
      return (s, [(' ', true)].intercalate fs.all)
    match part with
    | .text content quoted => .ok (s, fs.add quoted content.toList)
    | .given value quoted => .ok (s, addValue s quoted value fs)
    | .output _ _ => .ok (s, fs)
    | .arithmetic e quoted => do
      let (s, text) ← inner s e
      let text := unmark text
      match Arithmetic.read? text with
      | none => .error ("arithmetic expression: expecting primary: \"" ++ text ++ "\"")
      | some e =>
        match Arithmetic.eval s.bindings e with
        | .error t => .error (troubleText text t)
        | .ok (n, bindings) => .ok ({ s with bindings }, addValue s quoted (toString n) fs)
    | .parameter name use quoted => do
      if name = "@" ∨ name = "*" then return (s, addArguments s (name = "@") quoted fs)
      let value := s.value? name
      match use with
      | .value =>
        if value.isNone ∧ s.strict then throw (name ++ ": parameter not set")
        return (s, addValue s quoted (value.getD "") fs)
      | .length => return (s, addValue s quoted (toString (value.getD "").utf8ByteSize) fs)
      | .without cut p =>
        let (s, p) ← inner s p
        let kept := cut.apply (pattern p) (value.getD "").toList
        return (s, addValue s quoted (String.ofList kept) fs)
      | .fallback kind emptyToo word =>
        let missing := value.isNone || (emptyToo && value = some "")
        match kind with
        | .use =>
          if missing then word.foldlM (fun (s, fs) p => expandPart depth s fs p) (s, fs)
          else return (s, addValue s quoted (value.getD "") fs)
        | .instead =>
          if missing then return (s, fs.add quoted [])
          else word.foldlM (fun (s, fs) p => expandPart depth s fs p) (s, fs)
        | .assign =>
          if missing then
            let (s, text) ← inner s word
            return (s.set name (unmark text), addValue s quoted (unmark text) fs)
          else return (s, addValue s quoted (value.getD "") fs)
        | .fail =>
          if missing then
            let (_, text) ← inner s word
            let usual := "parameter not set" ++ if emptyToo then " or null" else ""
            throw (name ++ ": " ++ if text.isEmpty then usual else unmark text)
          else return (s, addValue s quoted (value.getD "") fs)

def nestingLimit : Nat := 64

def expandWord (s : State) (w : Word) : Except String (State × List (List Marked)) := do
  let (s, fs) ← w.foldlM (fun (s, fs) p => expandPart nestingLimit s fs p) (s, {})
  return (s, fs.all)

/-- A word that stands for one text, as behind an equals sign. -/
def expandText (s : State) (w : Word) : Except String (State × List Marked) := do
  let whole := { s with bindings := s.bindings.set "IFS" "" }
  let (after, fs) ← expandWord whole w
  let bindings := match s.bindings.get? "IFS" with
    | some ifs => after.bindings.set "IFS" ifs
    | none => after.bindings.erase "IFS"
  return ({ after with bindings }, [(' ', true)].intercalate fs)

/-! ## Paths -/

/-- A name that begins with a dot is meant only by a pattern that does. -/
def meansHidden (p : Glob.Pattern) (name : String) : Bool :=
  name.toList.head? ≠ some '.' || p.head? = some (.char '.')

def splitMarked : List Marked → List (List Marked)
  | [] => [[]]
  | c :: cs =>
    if c.1 = '/' then [] :: splitMarked cs
    else
      match splitMarked cs with
      | [] => [[c]]
      | piece :: rest => (c :: piece) :: rest

/-- A path from the current directory, without the dot in front. -/
def withoutStart (path : String) : String :=
  match path.toList with
  | '.' :: '/' :: rest => String.ofList rest
  | _ => path

def paths (t : FileTree) (cwd : Location) (field : List Marked) : List String :=
  if field.any fun c => !c.2 && (c.1 = '*' || c.1 = '?' || c.1 = '[') then
    let pieces := (splitMarked field).map pattern
    let rooted := field.head?.any (·.1 = '/')
    let pieces := if rooted then pieces.drop 1 else pieces
    let query := pieces.map fun p =>
      match p.literal? with
      | some name => Glob.Piece.literal name
      | none => .pattern p
    let found := (Glob.search t cwd FileTree.pathLimit (if rooted then "/" else ".") query).filter fun path =>
      let names := ((Path.splitSlash path.toList).map String.ofList).drop (if rooted then 1 else 0)
      (pieces.zip names).all fun (p, name) => meansHidden p name
    if found.isEmpty then [unmark field] else (found.map withoutStart).mergeSort (· ≤ ·)
  else [unmark field]

def expandWords (t : FileTree) (cwd : Location) (s : State) (ws : List Word) :
    Except String (State × List String) :=
  ws.foldlM (fun (s, texts) w => do
    let (s, fields) ← expandWord s w
    return (s, texts ++ fields.flatMap (paths t cwd))) (s, [])

/-! ## Outputs of commands -/

/-- A place for the output of a script: the script, and what the output makes of the whole. -/
abbrev Hole (α : Type) := List Command × (String → α)

def Hole.map {α β : Type} (f : α → β) (h : Hole α) : Hole β := (h.1, fun text => f (h.2 text))

/-- The first place in a list. -/
def holeIn {α : Type} (hole? : α → Option (Hole α)) : List α → Option (Hole (List α))
  | [] => none
  | a :: rest =>
    match hole? a with
    | some h => some (h.map (· :: rest))
    | none => (holeIn hole? rest).map (Hole.map (a :: ·))

def partHole? : Nat → Part → Option (Hole Part)
  | 0, _ => none
  | depth + 1, part =>
    match part with
    | .output script quoted => some (script, fun text => .given text quoted)
    | .arithmetic e quoted => (holeIn (partHole? depth) e).map (Hole.map (.arithmetic · quoted))
    | .parameter name (.fallback kind emptyToo w) quoted =>
      (holeIn (partHole? depth) w).map (Hole.map fun w => .parameter name (.fallback kind emptyToo w) quoted)
    | .parameter name (.without cut p) quoted =>
      (holeIn (partHole? depth) p).map (Hole.map fun p => .parameter name (.without cut p) quoted)
    | _ => none

def wordHole? (w : Word) : Option (Hole Word) := holeIn (partHole? nestingLimit) w

def redirectionHole? : Redirection → Option (Hole Redirection)
  | .mk d direction w => (wordHole? w).map (Hole.map (.mk d direction ·))

def assignmentHole? (a : String × Word) : Option (Hole (String × Word)) :=
  (wordHole? a.2).map (Hole.map (a.1, ·))

/-- The first output that the words of a command itself wait for. -/
def Command.hole? : Command → Option (Hole Command)
  | .simple line as ws rs =>
    (holeIn wordHole? ws).map (Hole.map (.simple line as · rs)) <|>
      (holeIn redirectionHole? rs).map (Hole.map (.simple line as ws ·)) <|>
        (holeIn assignmentHole? as).map (Hole.map (.simple line · ws rs))
  | .redirected line body rs => (holeIn redirectionHole? rs).map (Hole.map (.redirected line body ·))
  | .each name (some ws) body => (holeIn wordHole? ws).map (Hole.map fun ws => .each name (some ws) body)
  | .select w branches => (wordHole? w).map (Hole.map (.select · branches))
  | _ => none

end DecodePipeline.Shell
