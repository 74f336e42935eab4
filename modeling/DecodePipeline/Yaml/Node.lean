import DecodePipeline.Yaml.Token

/-!
The value that the tokens of a YAML text make. Aliases are kept as such beside the nodes that were given
names, because a node may hold an alias of itself.
-/

namespace DecodePipeline.Yaml

/-- A node. An alias holds the number of the anchor that it names. -/
inductive Node where
  | scalar (text : String) (style : Style) (tag : Option String)
  | sequence (items : List Node)
  | mapping (members : List (Node × Node))
  | alias (anchor : Nat)
  deriving Repr

namespace Node

/-- Stands where a value is left out. -/
def empty : Node := scalar "" .plain none

instance : Inhabited Node := ⟨empty⟩

end Node

/-- The anchors of a document: their numbers by name, the node that each number last stood for, counted
in the order in which nodes begin, and the nodes that have been completed. -/
structure Anchors where
  numbers : List (String × Nat) := []
  begun : Nat := 0
  places : List (Nat × Nat) := []
  nodes : List (Nat × Node) := []
  deriving Repr

namespace Anchors

def number? (a : Anchors) (name : String) : Option Nat :=
  (a.numbers.find? (·.1 = name)).map (·.2)

/-- A node with a name begins: its number is how many names there are. -/
def enter (a : Anchors) (name : String) : Anchors :=
  { a with
    numbers := (name, a.numbers.length) :: a.numbers.filter (·.1 ≠ name)
    begun := a.begun + 1
    places := (a.numbers.length, a.begun) :: a.places }

/-- The node that began as number `place` is complete. -/
def complete (a : Anchors) (place : Nat) (n : Node) : Anchors :=
  { a with nodes := (place, n) :: a.nodes }

def node? (a : Anchors) (number : Nat) : Option Node := do
  let (_, place) ← a.places.find? (·.1 = number)
  let (_, n) ← a.nodes.find? (·.1 = place)
  return n

end Anchors

/-- The tokens that are left, the tags' handles and the anchors so far. -/
structure Composer where
  tokens : List Token
  handles : List (String × String) := []
  anchors : Anchors := {}

namespace Composer

def standardHandles : List (String × String) := [("!", "!"), ("!!", "tag:yaml.org,2002:")]

def token? (s : Composer) : Option Token := s.tokens.head?

def next (s : Composer) : Composer := { s with tokens := s.tokens.drop 1 }

/-- Whether one of the tokens is next. -/
def isAt (s : Composer) (ts : List Token) : Bool := s.token?.any ts.contains

/-- The tag that a written tag stands for; its handle must be known. -/
def resolve? (s : Composer) (t : Tag) : Option String :=
  if t.handle.isEmpty then some t.suffix
  else (s.handles.find? (·.1 = t.handle)).map fun (_, stem) => stem ++ t.suffix

/-- An anchor and a tag in front of a node, in either order. -/
def properties (s : Composer) : Option String × Option Tag × Composer :=
  match s.tokens with
  | .anchor name :: .tag t :: rest => (some name, some t, { s with tokens := rest })
  | .tag t :: .anchor name :: rest => (some name, some t, { s with tokens := rest })
  | .anchor name :: rest => (some name, none, { s with tokens := rest })
  | .tag t :: rest => (none, some t, { s with tokens := rest })
  | _ => (none, none, s)

mutual

/-- A node. In a block it may be a block collection, and after a key a sequence without indentation. -/
def node? (block indentless : Bool) : Nat → Composer → Option (Node × Composer)
  | 0, _ => none
  | fuel + 1, s =>
    match s.tokens with
    | .alias name :: rest =>
      (s.anchors.number? name).map fun n => (.alias n, { s with tokens := rest })
    | _ => do
      let (name, written, s) := s.properties
      let tag ← match written with
        | none => some none
        | some t => (s.resolve? t).map some
      let place := s.anchors.begun
      let s := match name with
        | none => s
        | some name => { s with anchors := s.anchors.enter name }
      let (n, s) ← content? block indentless (name.isSome || tag.isSome) tag fuel s
      return (n, if name.isSome then { s with anchors := s.anchors.complete place n } else s)

/-- What follows a node's properties; without any of it a node with properties is empty. -/
def content? (block indentless marked : Bool) (tag : Option String) :
    Nat → Composer → Option (Node × Composer)
  | 0, _ => none
  | fuel + 1, s =>
    match s.token? with
    | some (.scalar text style) => some (.scalar text style tag, s.next)
    | some .flowSequenceStart =>
      (flowItems? true fuel s.next).map fun (items, s) => (.sequence items, s)
    | some .flowMappingStart =>
      (flowMembers? true fuel s.next).map fun (members, s) => (.mapping members, s)
    | t =>
      if indentless ∧ t = some .blockEntry then
        (indentlessItems? fuel s).map fun (items, s) => (.sequence items, s)
      else if block ∧ t = some .blockSequenceStart then
        (blockItems? fuel s.next).map fun (items, s) => (.sequence items, s)
      else if block ∧ t = some .blockMappingStart then
        (blockMembers? fuel s.next).map fun (members, s) => (.mapping members, s)
      else if marked then some (.scalar "" .plain tag, s)
      else none

/-- The items of a block sequence up to its end. -/
def blockItems? : Nat → Composer → Option (List Node × Composer)
  | 0, _ => none
  | fuel + 1, s =>
    match s.token? with
    | some .blockEntry => do
      let s := s.next
      let (item, s) ←
        if s.isAt [.blockEntry, .blockEnd] then some (Node.empty, s) else node? true false fuel s
      let (items, s) ← blockItems? fuel s
      return (item :: items, s)
    | some .blockEnd => some ([], s.next)
    | _ => none

/-- The items of a sequence that is not indented: as many as there are. -/
def indentlessItems? : Nat → Composer → Option (List Node × Composer)
  | 0, _ => none
  | fuel + 1, s =>
    if s.isAt [.blockEntry] then do
      let s := s.next
      let (item, s) ←
        if s.isAt [.blockEntry, .key, .value, .blockEnd] then some (Node.empty, s)
        else node? true false fuel s
      let (items, s) ← indentlessItems? fuel s
      return (item :: items, s)
    else some ([], s)

/-- The members of a block mapping up to its end. -/
def blockMembers? : Nat → Composer → Option (List (Node × Node) × Composer)
  | 0, _ => none
  | fuel + 1, s =>
    match s.token? with
    | some .key => do
      let (key, s) ← blockPart? fuel s.next
      let (value, s) ←
        if s.isAt [.value] then blockPart? fuel s.next else some (Node.empty, s)
      let (members, s) ← blockMembers? fuel s
      return ((key, value) :: members, s)
    | some .blockEnd => some ([], s.next)
    | _ => none

/-- A key or a value of a block mapping, which may be left out. -/
def blockPart? : Nat → Composer → Option (Node × Composer)
  | 0, _ => none
  | fuel + 1, s =>
    if s.isAt [.key, .value, .blockEnd] then some (Node.empty, s) else node? true true fuel s

/-- The items of a sequence in brackets, with a comma before each but the first. -/
def flowItems? (first : Bool) : Nat → Composer → Option (List Node × Composer)
  | 0, _ => none
  | fuel + 1, s =>
    if s.isAt [.flowSequenceEnd] then some ([], s.next)
    else do
      let s ← if first then some s else if s.isAt [.flowEntry] then some s.next else none
      if s.isAt [.flowSequenceEnd] then return ([], s.next)
      else
        let (item, s) ← if s.isAt [.key] then flowPair? fuel s.next else node? false false fuel s
        let (items, s) ← flowItems? false fuel s
        return (item :: items, s)

/-- A single pair in brackets, after its key mark. When the key is left out the token after it is passed
over, whatever it is. -/
def flowPair? : Nat → Composer → Option (Node × Composer)
  | 0, _ => none
  | fuel + 1, s => do
    let (key, s) ←
      if s.isAt [.value, .flowEntry, .flowSequenceEnd] then some (Node.empty, s.next)
      else node? false false fuel s
    let (value, s) ←
      if s.isAt [.value] then
        if s.next.isAt [.flowEntry, .flowSequenceEnd] then some (Node.empty, s.next)
        else node? false false fuel s.next
      else some (Node.empty, s)
    return (.mapping [(key, value)], s)

/-- The members of a mapping in braces, with a comma before each but the first. -/
def flowMembers? (first : Bool) : Nat → Composer → Option (List (Node × Node) × Composer)
  | 0, _ => none
  | fuel + 1, s =>
    if s.isAt [.flowMappingEnd] then some ([], s.next)
    else do
      let s ← if first then some s else if s.isAt [.flowEntry] then some s.next else none
      if s.isAt [.flowMappingEnd] then return ([], s.next)
      else
        let (member, s) ← flowMember? fuel s
        let (members, s) ← flowMembers? false fuel s
        return (member :: members, s)

/-- A member in braces: a key with a value, or a key alone. -/
def flowMember? : Nat → Composer → Option ((Node × Node) × Composer)
  | 0, _ => none
  | fuel + 1, s =>
    if s.isAt [.key] then do
      let s := s.next
      let (key, s) ←
        if s.isAt [.value, .flowEntry, .flowMappingEnd] then some (Node.empty, s)
        else node? false false fuel s
      if s.isAt [.value] then
        let s := s.next
        let (value, s) ←
          if s.isAt [.flowEntry, .flowMappingEnd] then some (Node.empty, s) else node? false false fuel s
        return ((key, value), s)
      else return ((key, Node.empty), s)
    else (node? false false fuel s).map fun (key, s) => ((key, Node.empty), s)

end

/-- The directives in front of a document. At most one names a version, which must be 1.1 or 1.2, and no
handle is given twice. -/
def directives? : List Token → Bool → List (String × String) → Option (List (String × String) × List Token)
  | .directive (.version major minor) :: rest, seen, handles =>
    if seen ∨ major ≠ 1 ∨ ¬(minor = 1 ∨ minor = 2) then none else directives? rest true handles
  | .directive (.handle h stem) :: rest, seen, handles =>
    if handles.any (·.1 = h) then none else directives? rest seen ((h, stem) :: handles)
  | rest, _, handles => some (handles, rest)

end Composer

/-- A document: its root, if there is one, and its anchors. -/
structure Document where
  root : Option Node
  anchors : Anchors

/-- The only document that the tokens make. -/
def Document.ofTokens? (tokens : List Token) : Option Document := do
  if tokens = [] then return ⟨none, {}⟩
  else
    let (given, rest) ← Composer.directives? tokens false []
    let handles := given ++ Composer.standardHandles
    let fuel := 4 * tokens.length + 4
    let (root, s) ←
      match rest with
      | .documentStart :: rest =>
        let s : Composer := { tokens := rest, handles }
        match s.token? with
        | none | some .documentStart | some .documentEnd | some (.directive _) => some (Node.empty, s)
        | _ => s.node? true false fuel
      | _ =>
        if rest.length = tokens.length then
          Composer.node? true false fuel { tokens := rest, handles }
        else none
    if s.tokens.all (· = .documentEnd) then return ⟨some root, s.anchors⟩ else none

def Document.read? (text : String) : Option Document :=
  (tokens? text).bind Document.ofTokens?

end DecodePipeline.Yaml
