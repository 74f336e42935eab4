import DecodePipeline.SystemError

/-!
A tree of files. Every node has a location, the names from the root down to it; the order of the entries
is the order in which a directory is listed. Looking up, putting and removing act on one location at a
time.
-/

namespace DecodePipeline

abbrev Location := List String

inductive Node where
  | directory
  | file (content : List UInt8) (executable : Bool)
  | link (target : String)
  /-- Reads as nothing and takes whatever is written. -/
  | sink
  /-- Reads as zeros without end. -/
  | zeros
  /-- Stands for an open stream of the process that names it. -/
  | stream (descriptor : Nat)
  /-- A program that the system provides. -/
  | tool (name : String)
  deriving DecidableEq, Repr

namespace Node

def isFile : Node → Bool
  | file _ _ | tool _ => true
  | _ => false

def isDirectory : Node → Bool
  | directory => true
  | _ => false

def isLink : Node → Bool
  | link _ => true
  | _ => false

end Node

structure FileTree where
  entries : List (Location × Node)
  deriving DecidableEq, Repr

namespace FileTree

/-- The node at a location; the root is always a directory. -/
def node? (t : FileTree) (l : Location) : Option Node :=
  if l = [] then some .directory else (t.entries.find? (·.1 = l)).map (·.2)

/-- Replaces the node at a location, or adds it after all others. -/
def put (t : FileTree) (l : Location) (n : Node) : FileTree :=
  if t.entries.any (·.1 = l) then
    ⟨t.entries.map fun e => if e.1 = l then (l, n) else e⟩
  else ⟨t.entries ++ [(l, n)]⟩

def erase (t : FileTree) (l : Location) : FileTree :=
  ⟨t.entries.filter (·.1 ≠ l)⟩

def eraseAll (t : FileTree) (l : Location) : FileTree :=
  ⟨t.entries.filter fun e => !l.isPrefixOf e.1⟩

/-- The name of an entry directly below a location. -/
def childName? (l : Location) (e : Location × Node) : Option (String × Node) :=
  match e.1.getLast? with
  | some name => if e.1 = l ++ [name] then some (name, e.2) else none
  | none => none

def children (t : FileTree) (l : Location) : List (String × Node) :=
  t.entries.filterMap (childName? l)

def below (t : FileTree) (l : Location) : List (Location × Node) :=
  t.entries.filterMap fun e =>
    if l.isPrefixOf e.1 ∧ l ≠ e.1 then some (e.1.drop l.length, e.2) else none

/-- Puts a node with directories above it where there are none. -/
def plant (t : FileTree) (l : Location) (n : Node) : FileTree :=
  let above := (List.range l.length).map fun i => l.take i
  let t := above.foldl (fun t a => if (t.node? a).isNone then t.put a .directory else t) t
  t.put l n

end FileTree

def Location.text (l : Location) : String :=
  "/" ++ "/".intercalate l

end DecodePipeline
