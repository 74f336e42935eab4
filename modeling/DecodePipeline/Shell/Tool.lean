import DecodePipeline.Shell.Condition
import DecodePipeline.Shell.Format

/-!
The small programs that scripts call. Each one takes its arguments, what it can read, and the file tree,
and gives its output, what it complains about, its status, the tree and how long it takes.
-/

namespace DecodePipeline.Shell

namespace Tool

structure Call where
  arguments : List String
  input : List UInt8
  tree : FileTree
  directory : Location

structure Result where
  tree : FileTree
  status : Nat := 0
  output : List UInt8 := []
  /-- Complaints, without the name in front. -/
  errors : List String := []
  /-- Whether it says where there is help. -/
  hint : Bool := false
  /-- How many milliseconds it takes. -/
  delay : Nat := 0

def quiet (c : Call) (status : Nat) : Result := { tree := c.tree, status }

def text (c : Call) (s : String) : Result := { tree := c.tree, output := Text.encodeUtf8 s }

def refuse (c : Call) (status : Nat) (message : String) : Result :=
  { tree := c.tree, status, errors := [message] }

def misuse (c : Call) (message : String) : Result :=
  { tree := c.tree, status := 1, errors := [message], hint := true }

def reason : SystemError → String
  | .number code => SystemError.description code
  | .custom text => text

/-! ## Arguments -/

/-- Letters of options in front, up to two dashes or the first word that is none, and the words. -/
def splitOptions : List String → List Char × List String
  | [] => ([], [])
  | w :: rest =>
    match w.toList with
    | ['-', '-'] => ([], rest)
    | '-' :: c :: cs =>
      let (letters, words) := splitOptions rest
      (c :: cs ++ letters, words)
    | _ => ([], w :: rest)

/-- The value of an option such as `-n 3` or `-n3`, and the other words. -/
def optionValue (letter : Char) : List String → Option String × List String
  | [] => (none, [])
  | w :: rest =>
    match w.toList with
    | '-' :: c :: cs =>
      if c = letter then
        if cs.isEmpty then (rest.head?, rest.drop 1) else (some (String.ofList cs), rest)
      else
        let (value, words) := optionValue letter rest
        (value, w :: words)
    | _ =>
      let (value, words) := optionValue letter rest
      (value, w :: words)

/-! ## Texts -/

def echo (c : Call) : Result :=
  let (words, feed) : List String × List UInt8 := match c.arguments with
    | "-n" :: rest => (rest, [])
    | ws => (ws, [10])
  let cs := (" ".intercalate words).toList
  let (bytes, ended) := Format.unescape cs.length cs
  { tree := c.tree, output := if ended then bytes else bytes ++ feed }

def printf (c : Call) : Result :=
  match c.arguments with
  | "--" :: format :: rest | format :: rest =>
    let p := Format.print format rest
    { tree := c.tree, status := p.status, output := p.output, errors := p.errors }
  | [] => refuse c 2 "usage: printf format [arg ...]"

/-- A device that is read without end is cut here. -/
def endless : Nat := 65536

/-- The bytes that a word names: a file's, or the input's for a dash. -/
def source (c : Call) (most : Nat) (word : String) : Except SystemError (List UInt8) := do
  if word = "-" then return c.input else FileTree.contentOf most (← c.tree.stat c.directory word)

/-- The bytes of some files after another, and complaints about those that cannot be read. -/
def sources (c : Call) (most : Nat) (words : List String) : List (String × List UInt8) × List String :=
  (if words.isEmpty then ["-"] else words).foldl (fun (found, errors) w =>
    match source c most w with
    | .ok bytes => (found ++ [(w, bytes)], errors)
    | .error e => (found, errors ++ [w ++ ": " ++ reason e])) ([], [])

def gathered (c : Call) (found : List (List UInt8)) (errors : List String) : Result :=
  { tree := c.tree, status := if errors.isEmpty then 0 else 1, output := found.flatten, errors }

def cat (c : Call) : Result :=
  let (_, words) := splitOptions c.arguments
  let (found, errors) := sources c endless words
  gathered c (found.map (·.2)) errors

def byteLines : List UInt8 → List (List UInt8)
  | [] => []
  | b :: rest =>
    if b = 10 then [b] :: byteLines rest
    else
      match byteLines rest with
      | [] => [[b]]
      | line :: lines => (b :: line) :: lines

def count? (text : String) : Option Nat := Decimal.read? text.toList

/-- The number behind `-n` or `-c`, which of them it was, and the words. -/
def amountOption (arguments : List String) : Option (Bool × String) × List String :=
  match optionValue 'c' arguments with
  | (some n, words) => (some (true, n), words)
  | (none, _) =>
    match optionValue 'n' arguments with
    | (some n, words) => (some (false, n), words)
    | (none, words) =>
      match words with
      | w :: rest =>
        match w.toList with
        | '-' :: d :: ds => if (d :: ds).all Char.isDigit then (some (false, String.ofList (d :: ds)), rest) else (none, words)
        | _ => (none, words)
      | [] => (none, [])

/-- Takes a number of bytes or lines of each source. -/
def part (c : Call) (takeBytes : Nat → List UInt8 → List UInt8)
    (takeLines : Nat → List (List UInt8) → List (List UInt8)) : Result :=
  let (amount, words) := amountOption c.arguments
  let (bytes, number) := amount.getD (false, "10")
  match count? number with
  | none => refuse c 1 ("invalid number of " ++ (if bytes then "bytes" else "lines") ++ ": '" ++ number ++ "'")
  | some n =>
    let (found, errors) := sources c (max n endless) words
    let cut (content : List UInt8) : List UInt8 :=
      if bytes then takeBytes n content else (takeLines n (byteLines content)).flatten
    gathered c (found.map fun f => cut f.2) errors

def head (c : Call) : Result := part c List.take List.take

def lastOf {α : Type} (n : Nat) (xs : List α) : List α := xs.drop (xs.length - n)

def tail (c : Call) : Result := part c lastOf lastOf

/-- The bytes that a set of characters stands for, with escapes, spans and classes. -/
def byteSet : Nat → List Char → List UInt8
  | _, [] => []
  | 0, _ => []
  | fuel + 1, '[' :: ':' :: r =>
    let name := String.ofList (r.takeWhile (· ≠ ':'))
    let span (a b : Char) : List UInt8 := (List.range (b.toNat + 1 - a.toNat)).map fun i => (a.toNat + i).toUInt8
    let members := match name with
      | "lower" => span 'a' 'z'
      | "upper" => span 'A' 'Z'
      | "digit" => span '0' '9'
      | "alpha" => span 'A' 'Z' ++ span 'a' 'z'
      | "alnum" => span '0' '9' ++ span 'A' 'Z' ++ span 'a' 'z'
      | "space" => [9, 10, 11, 12, 13, 32]
      | _ => []
    members ++ byteSet fuel ((r.dropWhile (· ≠ ':')).drop 2)
  | fuel + 1, c :: r =>
    let (first, rest) := if c = '\\' then Format.escape r else (Text.encodeUtf8 c.toString, r)
    match rest, first with
    | '-' :: d :: after, [low] =>
      let high := d.toNat
      (List.range (high + 1 - low.toNat)).map (fun i => (low.toNat + i).toUInt8) ++ byteSet fuel after
    | _, _ => first ++ byteSet fuel rest

/-- Replaces, deletes or squeezes bytes of the input. -/
def tr (c : Call) : Result :=
  let (letters, words) := splitOptions c.arguments
  let set (i : Nat) : List UInt8 := let cs := (words[i]?.getD "").toList; byteSet cs.length cs
  let from1 := set 0
  let inFirst (b : UInt8) : Bool := from1.contains b != (letters.contains 'c' || letters.contains 'C')
  let to2 := set 1
  let replaced (b : UInt8) : UInt8 :=
    if inFirst b then
      match from1.findIdx? (· = b) with
      | some i => (to2[i]?).getD (to2.getLast?.getD b)
      | none => to2.getLast?.getD b
    else b
  if letters.contains 'd' then { tree := c.tree, output := c.input.filter (!inFirst ·) }
  else if letters.contains 's' && words.length = 1 then
    let squeezed := c.input.foldl (fun (kept : List UInt8) b =>
      if inFirst b && kept.head? = some b then kept else b :: kept) []
    { tree := c.tree, output := squeezed.reverse }
  else { tree := c.tree, output := c.input.map replaced }

def wordCount (bytes : List UInt8) : Nat :=
  (bytes.foldl (fun (n, inside) b =>
    let blank := b = 32 || (9 ≤ b && b ≤ 13)
    if blank then (n, false) else (if inside then n else n + 1, true)) (0, false)).1

def wc (c : Call) : Result :=
  let (letters, words) := splitOptions c.arguments
  let (found, errors) := sources c endless words
  let letters := if letters.isEmpty then ['l', 'w', 'c'] else letters
  let counts (bytes : List UInt8) : List Nat :=
    (if letters.contains 'l' then [bytes.count 10] else []) ++
      (if letters.contains 'w' then [wordCount bytes] else []) ++
        if letters.contains 'c' || letters.contains 'm' then [bytes.length] else []
  let width :=
    if letters.length = 1 then 1
    else if words.isEmpty then 7
    else (toString (found.flatMap (·.2)).length).length
  let line (f : String × List UInt8) : String :=
    let columns := (counts f.2).map fun n =>
      let digits := toString n
      String.ofList (List.replicate (width - digits.length) ' ') ++ digits
    " ".intercalate columns ++ (if words.isEmpty then "" else " " ++ f.1) ++ "\n"
  gathered c (found.map fun f => Text.encodeUtf8 (line f)) errors

def seq (c : Call) : Result :=
  let number (s : String) : Int := match s.toList with
    | '-' :: r => -(Decimal.value r : Int)
    | cs => Decimal.value cs
  let (first, step, last) := match c.arguments.map number with
    | [b] => (1, 1, b)
    | [a, b] => (a, 1, b)
    | a :: s :: b :: _ => (a, s, b)
    | [] => (1, 1, 0)
  let size := if step = 0 then 0 else ((last - first).fdiv step + 1).toNat
  text c (String.join ((List.range size).map fun (i : Nat) => toString (first + step * i) ++ "\n"))

def yes (c : Call) : Result :=
  let line := (if c.arguments.isEmpty then "y" else " ".intercalate c.arguments) ++ "\n"
  text c (String.join (List.replicate (endless / line.utf8ByteSize) line))

/-! ## Names -/

def withoutFinalSlashes (cs : List Char) : List Char := (cs.reverse.dropWhile (· = '/')).reverse

def dirname (c : Call) : Result :=
  let cut (path : String) : String :=
    let cs := path.toList
    let kept := withoutFinalSlashes cs
    if kept.isEmpty then (if cs.isEmpty then "." else "/")
    else
      let above := (kept.reverse.dropWhile (· ≠ '/')).reverse
      if above.isEmpty then "."
      else
        let above := withoutFinalSlashes above
        if above.isEmpty then "/" else String.ofList above
  let (_, words) := splitOptions c.arguments
  if words.isEmpty then misuse c "missing operand" else text c (String.join (words.map (cut · ++ "\n")))

def basename (c : Call) : Result :=
  match (splitOptions c.arguments).2 with
  | [] => misuse c "missing operand"
  | path :: rest =>
    let kept := withoutFinalSlashes path.toList
    let name :=
      if kept.isEmpty then (if path.isEmpty then [] else ['/'])
      else (kept.reverse.takeWhile (· ≠ '/')).reverse
    let ending := (rest.head?.getD "").toList
    let name := if name ≠ ending ∧ ending.isSuffixOf name then name.take (name.length - ending.length) else name
    text c (String.ofList name ++ "\n")

/-! ## Files -/

def forEach (c : Call) (words : List String) (f : FileTree → String → Except String FileTree) : Result :=
  let (tree, errors) := words.foldl (fun (tree, errors) w =>
    match f tree w with
    | .ok tree => (tree, errors)
    | .error message => (tree, errors ++ [message])) (c.tree, [])
  { tree, status := if errors.isEmpty then 0 else 1, errors }

def because {α : Type} (what : String) (r : Except SystemError α) : Except String α :=
  r.mapError fun e => what ++ ": " ++ reason e

def rm (c : Call) : Result :=
  let (letters, words) := splitOptions c.arguments
  let deep := letters.contains 'r' || letters.contains 'R'
  let force := letters.contains 'f'
  if words.isEmpty then if force then quiet c 0 else misuse c "missing operand"
  else
    forEach c words fun t w =>
      match t.find c.directory false w with
      | .error .notFound => if force then .ok t else because ("cannot remove '" ++ w ++ "'") (.error .notFound)
      | .error e => because ("cannot remove '" ++ w ++ "'") (.error e)
      | .ok (l, .directory) =>
        if deep then .ok (t.eraseAll l) else because ("cannot remove '" ++ w ++ "'") (.error .isDirectory)
      | .ok (l, _) => .ok (t.erase l)

def rmdir (c : Call) : Result :=
  forEach c (splitOptions c.arguments).2 fun t w =>
    because ("failed to remove '" ++ w ++ "'") <|
      match t.find c.directory false w with
      | .error e => .error e
      | .ok (l, .directory) => if (t.children l).isEmpty then .ok (t.erase l) else .error (.number 39)
      | .ok _ => .error .notDirectory

def mkdir (c : Call) : Result :=
  let (letters, words) := splitOptions c.arguments
  if words.isEmpty then misuse c "missing operand"
  else forEach c words fun t w =>
    because ("cannot create directory '" ++ w ++ "'") <|
      if letters.contains 'p' then
        match t.createDirectories c.directory w with
        | (t, .ok _) => .ok t
        | (_, .error e) => .error e
      else t.makeDirectory c.directory w

def touch (c : Call) : Result :=
  forEach c (splitOptions c.arguments).2 fun t w =>
    match t.stat c.directory w with
    | .ok _ => .ok t
    | .error _ => because ("cannot touch '" ++ w ++ "'") (t.append c.directory w [])

/-- Where something called `name` goes that is to be put at a path: into it if it is a directory. -/
def destination (t : FileTree) (cwd : Location) (path name : String) : String :=
  if t.isDirectory cwd path then Path.join path ((Path.fileName? name).getD name) else path

/-- Puts a node with all below it at a path. -/
def place (t : FileTree) (cwd : Location) (node : Node) (below : List (Location × Node)) (path : String) :
    Except SystemError FileTree := do
  let spot ← t.resolve cwd false (FileTree.withoutFinalSlashes path)
  return below.foldl (fun t (l, n) => t.put (spot.location ++ l) n) (t.put spot.location node)

def ln (c : Call) : Result :=
  let (letters, words) := splitOptions c.arguments
  let symbolic := letters.contains 's'
  match words.reverse with
  | [] => misuse c "missing file operand"
  | last :: others =>
    let (path, targets) := if others.isEmpty then (".", [last]) else (last, others.reverse)
    forEach c targets fun t target =>
      let path := destination t c.directory path target
      let kind := if symbolic then "symbolic" else "hard"
      because ("failed to create " ++ kind ++ " link '" ++ path ++ "'") do
        let t := if letters.contains 'f' then (t.remove c.directory path).toOption.getD t else t
        let node ← if symbolic then pure (Node.link target) else (·.2) <$> t.find c.directory false target
        let spot ← t.resolve c.directory false path
        if spot.node.isSome then throw .alreadyExists
        return t.put spot.location node

/-- Copies or moves the words before the last one to it. -/
def transfer (c : Call) (keep : Bool) : Result :=
  let (letters, words) := splitOptions c.arguments
  let deep := !keep || letters.contains 'r' || letters.contains 'R' || letters.contains 'a'
  match words.reverse with
  | [] => misuse c "missing file operand"
  | [w] => misuse c ("missing destination file operand after '" ++ w ++ "'")
  | last :: others =>
    forEach c others.reverse fun t w => do
      let (l, node) ← because ("cannot stat '" ++ w ++ "'") (t.find c.directory keep w)
      if node = .directory ∧ ¬deep then throw ("-r not specified; omitting directory '" ++ w ++ "'")
      let below := if node = .directory then t.below l else []
      let path := destination t c.directory last w
      let t := if keep then t else t.eraseAll l
      because ("cannot create regular file '" ++ path ++ "'") <|
        match node, t.find c.directory true path with
        | .file content _, .ok (there, .file _ executable) =>
          if keep then .ok (t.put there (.file content executable)) else place t c.directory node below path
        | _, _ => place t c.directory node below path

def chmod (c : Call) : Result :=
  match c.arguments with
  | [] => misuse c "missing operand"
  | mode :: words =>
    let octal := mode.toList.all Char.isDigit
    let executable := if octal then mode.toList.any fun d => (d.toNat - 48) % 2 = 1 else mode.toList.contains '+'
    let changes := octal || mode.toList.contains 'x'
    forEach c words fun t w =>
      because ("cannot access '" ++ w ++ "'") <|
        (t.find c.directory true w).map fun
          | (l, .file content old) => t.put l (.file content (if changes then executable else old))
          | _ => t

def ls (c : Call) : Result :=
  let (letters, words) := splitOptions c.arguments
  let shown (name : String) : Bool := letters.contains 'a' || letters.contains 'A' || name.toList.head? ≠ some '.'
  let list (w : String) : Except String (List UInt8) :=
    because ("cannot access '" ++ w ++ "'") do
      if ← (·.isDirectory) <$> c.tree.stat c.directory w then
        let names := ((← c.tree.list c.directory w).map (·.1)).filter shown
        return Text.encodeUtf8 (String.join ((names.mergeSort (· ≤ ·)).map (· ++ "\n")))
      else return Text.encodeUtf8 (w ++ "\n")
  let results := (if words.isEmpty then ["."] else words).map list
  let errors := results.filterMap fun
    | .error e => some e
    | .ok _ => none
  { gathered c (results.map fun r => r.toOption.getD []) errors with status := if errors.isEmpty then 0 else 2 }

/-! ## Time -/

/-- A length of time in milliseconds, rounded up: a decimal number, perhaps with a unit. -/
def duration? (text : String) : Option Nat := do
  let cs := text.toList
  let whole := cs.takeWhile Char.isDigit
  let (fraction, unit) := match cs.drop whole.length with
    | '.' :: r => (r.takeWhile Char.isDigit, r.dropWhile Char.isDigit)
    | r => ([], r)
  if whole.isEmpty && fraction.isEmpty then none
  let scale ← match unit with
    | [] | ['s'] => some 1000
    | ['m'] => some 60000
    | ['h'] => some 3600000
    | ['d'] => some 86400000
    | _ => none
  let units := Decimal.tenTo fraction.length
  return (Decimal.value (whole ++ fraction) * scale + units - 1) / units

def sleep (c : Call) : Result :=
  match c.arguments.mapM duration? with
  | some (d :: ds) => { tree := c.tree, delay := ds.foldl (· + ·) d }
  | some [] => misuse c "missing operand"
  | none =>
    let bad := c.arguments.filter fun a => (duration? a).isNone
    { tree := c.tree, status := 1, hint := true
      errors := bad.map fun a => "invalid time interval '" ++ a ++ "'" }

/-! ## Tests -/

def test (bracket : Bool) (c : Call) : Result :=
  let words? := if bracket then
      if c.arguments.getLast? = some "]" then some c.arguments.dropLast else none
    else some c.arguments
  match words? with
  | none => refuse c 2 "missing ]"
  | some words =>
    match Condition.holds c.tree c.directory words with
    | .ok true => quiet c 0
    | .ok false => quiet c 1
    | .error message => refuse c 2 message

/-! ## All of them -/

/-- Tools that are part of the shell, so that its name stands in front of their complaints. -/
def builtin? : String → Option (Call → Result)
  | "true" | ":" => some (quiet · 0)
  | "false" => some (quiet · 1)
  | "echo" => some echo
  | "printf" => some printf
  | "[" => some (test true)
  | "test" => some (test false)
  | _ => none

/-- Tools that are files of their own. -/
def external? : String → Option (Call → Result)
  | "true" => some (quiet · 0)
  | "false" => some (quiet · 1)
  | "echo" => some echo
  | "printf" => some printf
  | "cat" => some cat
  | "head" => some head
  | "tail" => some tail
  | "tr" => some tr
  | "wc" => some wc
  | "seq" => some seq
  | "yes" => some yes
  | "dirname" => some dirname
  | "basename" => some basename
  | "rm" => some rm
  | "rmdir" => some rmdir
  | "mkdir" => some mkdir
  | "touch" => some touch
  | "ln" => some ln
  | "cp" => some (transfer · true)
  | "mv" => some (transfer · false)
  | "chmod" => some chmod
  | "ls" => some ls
  | "sleep" => some sleep
  | _ => none

def externalNames : List String :=
  ["true", "false", "echo", "printf", "cat", "head", "tail", "tr", "wc", "seq", "yes", "dirname", "basename",
    "rm", "rmdir", "mkdir", "touch", "ln", "cp", "mv", "chmod", "ls", "sleep"]

/-- Whether a tool reads its input when called so. -/
def readsInput (name : String) (arguments : List String) : Bool :=
  match name with
  | "cat" | "wc" => (splitOptions arguments).2.isEmpty || arguments.contains "-"
  | "head" | "tail" => (amountOption arguments).2.isEmpty || arguments.contains "-"
  | "tr" => true
  | _ => false

end Tool

end DecodePipeline.Shell
