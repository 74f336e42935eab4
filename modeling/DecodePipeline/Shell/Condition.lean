import DecodePipeline.FileTree.Operation
import DecodePipeline.Shell.Arithmetic
import DecodePipeline.Text.Blank

/-!
Conditions on texts, numbers and files, as the words between two brackets write them.
-/

namespace DecodePipeline.Shell.Condition

inductive Test where
  | text (sign a b : String)
  | number (sign a b : String)
  | file (sign path : String)
  | given (a : String)
  | empty (a : String)
  | not (t : Test)
  | and (a b : Test)
  | or (a b : Test)
  deriving Repr

def textSigns : List String := ["=", "==", "!=", "<", ">"]

def numberSigns : List String := ["-eq", "-ne", "-lt", "-le", "-gt", "-ge"]

def fileSigns : List String := ["-e", "-f", "-d", "-h", "-L", "-r", "-w", "-x", "-s"]

mutual

def disjunction : Nat → List String → Except String (Test × List String)
  | 0, _ => .error "argument expected"
  | fuel + 1, ws => do
    let (a, rest) ← conjunction fuel ws
    match rest with
    | "-o" :: rest =>
      let (b, rest) ← disjunction fuel rest
      return (.or a b, rest)
    | _ => return (a, rest)

def conjunction : Nat → List String → Except String (Test × List String)
  | 0, _ => .error "argument expected"
  | fuel + 1, ws => do
    let (a, rest) ← single fuel ws
    match rest with
    | "-a" :: rest =>
      let (b, rest) ← conjunction fuel rest
      return (.and a b, rest)
    | _ => return (a, rest)

def single : Nat → List String → Except String (Test × List String)
  | 0, _ => .error "argument expected"
  | fuel + 1, ws =>
    match ws with
    | [] => .error "argument expected"
    | a :: sign :: b :: rest =>
      if textSigns.contains sign then .ok (.text sign a b, rest)
      else if numberSigns.contains sign then .ok (.number sign a b, rest)
      else simple fuel a (sign :: b :: rest)
    | a :: rest => simple fuel a rest

def simple : Nat → String → List String → Except String (Test × List String)
  | 0, _, _ => .error "argument expected"
  | fuel + 1, a, rest =>
    match rest with
    | [] => .ok (.given a, [])
    | b :: more =>
      if a = "!" then do
        let (t, rest) ← single fuel rest
        return (.not t, rest)
      else if a = "(" then do
        let (t, rest) ← disjunction fuel rest
        match rest with
        | ")" :: rest => return (t, rest)
        | _ => .error "closing paren expected"
      else if a = "-z" then .ok (.empty b, more)
      else if a = "-n" then .ok (.given b, more)
      else if fileSigns.contains a then .ok (.file a b, more)
      else .ok (.given a, rest)

end

def read (ws : List String) : Except String Test := do
  if ws.isEmpty then return .given ""
  let (t, rest) ← disjunction (8 * ws.length + 8) ws
  match rest with
  | [] => return t
  | w :: more => throw ((if more.isEmpty then ws.headD w else w) ++ ": unexpected operator")

def number (text : String) : Except String Int :=
  let cs := Text.trimChars text.toList
  let (negative, body) := match cs with
    | '-' :: r => (true, r)
    | '+' :: r => (false, r)
    | r => (false, r)
  match Decimal.read? body with
  | some n => .ok (if negative then -n else n)
  | none => .error ("Illegal number: " ++ text)

def compare (sign : String) (a b : Int) : Bool :=
  match sign with
  | "-eq" => a = b
  | "-ne" => a ≠ b
  | "-lt" => a < b
  | "-le" => a ≤ b
  | "-gt" => b < a
  | _ => b ≤ a

def fileHolds (t : FileTree) (cwd : Location) (sign path : String) : Bool :=
  match t.find cwd (sign ≠ "-h" ∧ sign ≠ "-L") path with
  | .error _ => false
  | .ok (_, n) =>
    match sign with
    | "-f" => n.isFile
    | "-d" => n.isDirectory
    | "-h" | "-L" => n.isLink
    | "-s" => match n with
      | .file content _ => !content.isEmpty
      | .directory | .tool _ => true
      | _ => false
    | "-x" => match n with
      | .file _ executable => executable
      | .directory | .tool _ => true
      | _ => false
    | _ => true

def Test.holds (t : FileTree) (cwd : Location) : Test → Except String Bool
  | text sign a b => .ok <| match sign with
    | "!=" => a ≠ b
    | "<" => a < b
    | ">" => b < a
    | _ => a = b
  | number sign a b => do return compare sign (← Condition.number a) (← Condition.number b)
  | file sign path => .ok (fileHolds t cwd sign path)
  | given a => .ok (!a.isEmpty)
  | empty a => .ok a.isEmpty
  | not c => do return !(← c.holds t cwd)
  | and a b => do
    let m ← a.holds t cwd
    let n ← b.holds t cwd
    return m && n
  | or a b => do
    let m ← a.holds t cwd
    let n ← b.holds t cwd
    return m || n

def holds (t : FileTree) (cwd : Location) (ws : List String) : Except String Bool := do
  (← read ws).holds t cwd

end DecodePipeline.Shell.Condition
