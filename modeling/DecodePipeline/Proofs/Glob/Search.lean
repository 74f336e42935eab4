import DecodePipeline.Proofs.FileTree.Removal
import DecodePipeline.Proofs.Glob.Escape

/-!
Searching a file tree for a pattern below a directory whose path is escaped. The escaped part finds the
directory and nothing else, written perhaps in another way; the pattern finds names in it.
-/

namespace DecodePipeline.Glob

/-! ## Searching for escaped pieces -/

variable {t : FileTree} {cwd : Location} {path q name : String} {part : List Char}
  {parts : List (List Char)} {rest : List Piece}

/-- A special character rules out the directory itself and the one above. -/
theorem dots_quoted (special : part.any (IsSpecial ·)) :
    (Piece.pattern (part.map quoted)).dots = [] := by
  have other : ∀ name ∈ [".", ".."], Pattern.accepts (part.map quoted) name.toList = false := by
    intro name mem
    refine Bool.eq_false_iff.mpr fun accepts => ?_
    rw [← (accepts_quoted part _).mp accepts] at special
    obtain rfl | rfl : name = "." ∨ name = ".." := by simpa using mem
    all_goals
      revert special
      decide
  simp only [Piece.dots]
  split
  · next own =>
      rw [← Piece.pattern.inj own, List.filter_eq_nil_iff]
      exact fun name mem => by simp [other name mem]
  · rfl

/-- The empty path leads nowhere. -/
theorem nothing_at_empty (t : FileTree) (cwd : Location) :
    t.exists? cwd "" = false ∧ isThere t cwd "" = false := by
  have fails (follow : Bool) : t.find cwd follow "" = .error .notFound := by
    simp [FileTree.find, FileTree.resolve, bind, Except.bind]
  simp [FileTree.exists?, FileTree.stat, isThere, fails, Except.map, Except.isOk, Except.toBool]

theorem below_ne_empty (filled : name ≠ "") (path : String) :
    below path name ≠ "" := by
  simp only [below]
  split_ifs
  · exact filled
  · exact Path.join_ne_empty filled path

theorem childNames_nodup (sound : t.Sound) (cwd : Location) (path : String) :
    (childNames t cwd path).Nodup := by
  simp only [childNames]
  split
  · next entries listed =>
      obtain ⟨l, _, rfl⟩ := FileTree.list_eq_ok.mp listed
      exact (List.mergeSort_perm _ _).nodup_iff.mpr (sound.children_nodup l)
  · exact List.nodup_nil

/-- An escaped piece leads to one path, or nowhere. -/
theorem search_quotedPiece (sound : t.Sound) (cwd : Location) (fuel : Nat) (path : String)
    (part : List Char) (rest : List Piece) :
    search t cwd fuel path (quotedPiece part :: rest) = [] ∨
      below path (String.ofList part) ≠ "" ∧ ∃ fuel',
        search t cwd fuel path (quotedPiece part :: rest) =
          search t cwd fuel' (below path (String.ofList part)) rest := by
  cases fuel with
  | zero => exact .inl (by simp [search])
  | succ fuel =>
      simp only [quotedPiece]
      split_ifs with special
      · have named : ((childNames t cwd path).filter fun name =>
              Pattern.accepts (part.map quoted) name.toList) =
            (childNames t cwd path).filter (· = String.ofList part) := by
          refine List.filter_congr fun name _ => ?_
          rw [Bool.eq_iff_iff, accepts_quoted, decide_eq_true_iff, ← String.toList_inj,
            String.toList_ofList]
        have filled : part ≠ [] := by
          rintro rfl
          cases special
        have filled : below path (String.ofList part) ≠ "" :=
          below_ne_empty (by simpa using filled) path
        have once := List.nodup_iff_count_le_one.mp (childNames_nodup sound cwd path)
          (String.ofList part)
        simp only [search, named, List.filter_eq, dots_quoted special]
        obtain none | one := Nat.le_one_iff_eq_zero_or_eq_one.mp once
        · exact .inl (by simp [none])
        · exact .inr ⟨filled, fuel, by simp [one]⟩
      · by_cases filled : below path (String.ofList part) = ""
        · have empty : String.ofList part = "" :=
            by_contra fun name => below_ne_empty name path filled
          obtain ⟨absent, absent'⟩ := nothing_at_empty t cwd
          rw [empty] at filled ⊢
          exact .inl (by simp [search, filled, absent, absent'])
        · simp only [search]
          split
          all_goals
            split
            · exact .inr ⟨filled, fuel, rfl⟩
            · exact .inl rfl

/-- How a path is spelled that is found piece by piece: at no time is it empty. -/
inductive Spells : String → List (List Char) → String → Prop where
  | done (path : String) : Spells path [] path
  | next {path : String} {part : List Char} {parts : List (List Char)} {q : String} :
      below path (String.ofList part) ≠ "" → Spells (below path (String.ofList part)) parts q →
      Spells path (part :: parts) q

/-- Escaped pieces lead to one path, or nowhere. -/
theorem search_quotedPieces (sound : t.Sound) (cwd : Location) (fuel : Nat) (path : String)
    (parts : List (List Char)) (rest : List Piece) :
    search t cwd fuel path (parts.map quotedPiece ++ rest) = [] ∨
      ∃ q fuel', Spells path parts q ∧
        search t cwd fuel path (parts.map quotedPiece ++ rest) = search t cwd fuel' q rest := by
  induction parts generalizing fuel path with
  | nil => exact .inr ⟨path, fuel, .done path, rfl⟩
  | cons part parts ih =>
      rw [List.map_cons, List.cons_append]
      obtain none | ⟨filled, fuel', eq⟩ := search_quotedPiece sound cwd fuel path part
        (parts.map quotedPiece ++ rest)
      · exact .inl none
      · rw [eq]
        refine (ih fuel' _).imp_right ?_
        rintro ⟨q, fuel'', spells, eq⟩
        exact ⟨q, fuel'', .next filled spells, eq⟩

theorem steps_below (left : path ≠ "") (plain : '/' ∉ name.toList) :
    FileTree.steps (below path name) = FileTree.steps path ++ FileTree.steps name := by
  simp only [below]
  split_ifs with here
  · subst here
    have none : FileTree.steps "." = [] := by decide
    rw [none, List.nil_append]
  · exact FileTree.steps_join left plain

theorem isAbsolute_below (left : path ≠ "") (plain : '/' ∉ name.toList) :
    Path.isAbsolute (below path name) = Path.isAbsolute path := by
  simp only [below]
  split_ifs with here
  · subst here
    rw [Path.isAbsolute_plain plain]
    rfl
  · exact Path.isAbsolute_join left plain

/-- A spelled path has the names of its pieces, up to dots, and starts where it started. -/
theorem Spells.names (spells : Spells path parts q) (left : path ≠ "")
    (plain : ∀ part ∈ parts, '/' ∉ part) :
    q ≠ "" ∧ Path.isAbsolute q = Path.isAbsolute path ∧
      FileTree.steps q =
        FileTree.steps path ++ parts.flatMap fun part => FileTree.steps (String.ofList part) := by
  induction spells with
  | done path => exact ⟨left, rfl, by simp⟩
  | @next path part parts q filled _ ih =>
      obtain ⟨own, later⟩ := List.forall_mem_cons.mp plain
      have own : '/' ∉ (String.ofList part).toList := by rwa [String.toList_ofList]
      obtain ⟨some_, absolute, names⟩ := ih filled later
      refine ⟨some_, absolute.trans (isAbsolute_below left own), ?_⟩
      rw [names, steps_below left own, List.flatMap_cons, List.append_assoc]

theorem Spells.last {final : List Char} (spells : Spells path (parts ++ [final]) q) :
    ∃ front, Spells path parts front ∧ q = Glob.below front (String.ofList final) := by
  induction parts generalizing path with
  | nil =>
      cases spells with
      | next filled later =>
          cases later
          exact ⟨path, .done path, rfl⟩
  | cons part parts ih =>
      cases spells with
      | next filled later =>
          obtain ⟨front, spells, eq⟩ := ih later
          exact ⟨front, .next filled spells, eq⟩

/-! ## Patterns below an escaped path -/

/-- Where a search for a path starts. -/
def start (dir : String) : String := if Path.isAbsolute dir then "/" else "."

/-- The pieces of a path behind its start. -/
def partsOf (dir : String) : List (List Char) :=
  Path.splitSlash (if Path.isAbsolute dir then dir.toList.drop 1 else dir.toList)

theorem plain_of_mem_partsOf {dir : String} (mem : part ∈ partsOf dir) : '/' ∉ part :=
  Path.slash_notMem_of_mem_splitSlash mem

theorem steps_start (dir : String) : FileTree.steps (start dir) = [] := by
  simp only [start]
  split_ifs <;> decide

theorem isAbsolute_start (dir : String) : Path.isAbsolute (start dir) = Path.isAbsolute dir := by
  simp only [start]
  split_ifs with absolute
  · rw [absolute]
    rfl
  · rw [Bool.eq_false_iff.mpr absolute]
    rfl

theorem steps_eq_flatMap (path : String) : FileTree.steps path =
    (Path.splitSlash path.toList).flatMap fun part => FileTree.steps (String.ofList part) := by
  have plain : ∀ part ∈ Path.splitSlash path.toList, '/' ∉ part :=
    fun _ => Path.slash_notMem_of_mem_splitSlash
  rw [FileTree.steps_eq]
  generalize Path.splitSlash path.toList = parts at plain ⊢
  induction parts with
  | nil => rfl
  | cons part parts ih =>
      obtain ⟨own, later⟩ := List.forall_mem_cons.mp plain
      rw [List.flatMap_cons, ← ih later, FileTree.steps_eq, String.toList_ofList,
        Path.splitSlash_plain own]
      rw [← List.singleton_append, List.filter_append, List.map_append, List.filter_append]

theorem steps_partsOf (dir : String) :
    (partsOf dir).flatMap (fun part => FileTree.steps (String.ofList part)) = FileTree.steps dir := by
  rw [steps_eq_flatMap]
  simp only [partsOf]
  split_ifs with absolute
  · cases eq : dir.toList with
    | nil => simp [Path.isAbsolute, eq] at absolute
    | cons c cs =>
        obtain rfl : c = '/' := by simpa [Path.isAbsolute, eq] using absolute
        have none : FileTree.steps (String.ofList []) = [] := by decide
        rw [Path.splitSlash_slash, List.flatMap_cons, none]
        rfl
  · rfl

theorem isAbsolute_escape (dir more : String) (left : dir ≠ "") :
    Path.isAbsolute (escape dir ++ more) = Path.isAbsolute dir := by
  cases eq : dir.toList with
  | nil => exact absurd (String.toList_eq_nil_iff.mp eq) left
  | cons c cs =>
      simp only [Path.isAbsolute, String.toList_append, toList_escape, eq, escaped, List.flatMap_cons]
      split_ifs with special
      · have other : c ≠ '/' := by
          rintro rfl
          revert special
          decide
        simp [other]
      · rfl

theorem mapM_escaped (parts : List (List Char)) :
    parts.mapM (Piece.read? ∘ escaped) = some (parts.map quotedPiece) := by
  induction parts with
  | nil => rfl
  | cons part parts ih => simp [read?_piece_escaped, ih]

/-- The pieces of a pattern below an escaped path are those of the path and, unless it is empty, the
pattern itself. -/
theorem read?_below_escaped {dir pattern : String} (left : dir ≠ "")
    (plain : '/' ∉ pattern.toList) : Query.read? (escape dir ++ "/" ++ pattern) =
      if pattern = "" then some ⟨start dir, (partsOf dir).map quotedPiece, true⟩
      else (Piece.read? pattern.toList).map fun piece =>
        ⟨start dir, (partsOf dir).map quotedPiece ++ [piece], false⟩ := by
  have whole : (escape dir ++ "/" ++ pattern).toList =
      escaped dir.toList ++ '/' :: pattern.toList := by
    simp [toList_escape]
  have absolute : Path.isAbsolute (escape dir ++ "/" ++ pattern) = Path.isAbsolute dir := by
    rw [String.append_assoc, isAbsolute_escape dir _ left]
  have body : (if Path.isAbsolute dir then (escape dir ++ "/" ++ pattern).toList.drop 1
      else (escape dir ++ "/" ++ pattern).toList) =
      escaped (if Path.isAbsolute dir then dir.toList.drop 1 else dir.toList) ++
        '/' :: pattern.toList := by
    rw [whole]
    split_ifs with absolute
    · cases eq : dir.toList with
      | nil => simp [Path.isAbsolute, eq] at absolute
      | cons c cs =>
          obtain rfl : c = '/' := by simpa [Path.isAbsolute, eq] using absolute
          rfl
    · rfl
  have parts : Path.splitSlash (if Path.isAbsolute dir then
      (escape dir ++ "/" ++ pattern).toList.drop 1
      else (escape dir ++ "/" ++ pattern).toList) =
        (partsOf dir).map escaped ++ [pattern.toList] := by
    rw [body, Path.splitSlash_append, splitSlash_escaped, Path.splitSlash_plain plain]
    rfl
  have filled : (if Path.isAbsolute dir then (escape dir ++ "/" ++ pattern).toList.drop 1
      else (escape dir ++ "/" ++ pattern).toList).isEmpty = false := by
    rw [body]
    simp
  have final : (escape dir ++ "/" ++ pattern).toList.getLast? = some '/' ↔ pattern = "" := by
    rw [whole, ← String.toList_eq_nil_iff]
    obtain none | ⟨front, c, eq⟩ := List.eq_nil_or_concat pattern.toList
    · simp [none]
    · have other : c ≠ '/' := fun slash => plain (by simp [eq, slash])
      rw [eq, List.concat_eq_append, ← List.cons_append, ← List.append_assoc, List.getLast?_concat]
      simp [other]
  simp only [Query.read?, absolute, parts, filled, final, start]
  by_cases empty : pattern = ""
  · subst empty
    simp [mapM_escaped]
  · simp only [empty, String.toList_eq_nil_iff, List.getLast?_concat, Option.some_inj, if_false,
      List.mapM_append, List.mapM_map, mapM_escaped]
    cases read : Piece.read? pattern.toList <;> simp [read]

/-- What a pattern below an escaped path finds, it finds by one search from a spelling of the path. -/
theorem paths?_below_escaped {dir pattern : String} (sound : t.Sound) (cwd : Location)
    (left : dir ≠ "") (plain : '/' ∉ pattern.toList) :
    let found := (paths? t cwd (escape dir ++ "/" ++ pattern)).getD []
    found = [] ∨ ∃ q, Spells (start dir) (partsOf dir) q ∧
      (pattern = "" ∧ t.isDirectory cwd q ∧ found = [q] ∨
        ∃ piece fuel, Piece.read? pattern.toList = some piece ∧ pattern ≠ "" ∧
          found = search t cwd fuel q [piece]) := by
  have spelled (fuel : Nat) (rest : List Piece) :=
    search_quotedPieces sound cwd fuel (start dir) (partsOf dir) rest
  simp only [paths?, read?_below_escaped left plain]
  by_cases empty : pattern = ""
  · simp only [empty, if_true, Option.map_some, Option.getD_some]
    generalize FileTree.pathLimit + ((partsOf dir).map quotedPiece).length = fuel
    obtain none | ⟨q, fuel', spells, eq⟩ := spelled fuel []
    · rw [List.append_nil] at none
      exact .inl (by rw [none]; rfl)
    · rw [List.append_nil] at eq
      rw [eq]
      cases fuel' with
      | zero => exact .inl (by simp [search])
      | succ fuel' =>
          cases inside : t.isDirectory cwd q with
          | false => exact .inl (by simp [search, inside])
          | true => exact .inr ⟨q, spells, .inl ⟨trivial, inside, by simp [search, inside]⟩⟩
  · simp only [empty, if_false]
    cases read : Piece.read? pattern.toList with
    | none => exact .inl rfl
    | some piece =>
        simp only [Option.map_some, Option.getD_some, Bool.not_false, Bool.true_or, List.filter_true]
        obtain none | ⟨q, fuel', spells, eq⟩ := spelled _ [piece]
        · exact .inl none
        · exact .inr ⟨q, spells, .inr ⟨piece, fuel', rfl, empty, eq⟩⟩

/-! ## The names that a pattern stands for -/

/-- A pattern for one name stands for a name. -/
def Matches (pattern name : String) : Prop :=
  ∃ piece, Piece.read? pattern.toList = some piece ∧ piece ≠ .directories ∧ piece.acceptsName name

theorem eq_of_mapM_char {cs ds : List Char} {p : Pattern} (read : Pattern.read? cs = some p)
    (literal : p.mapM Token.char? = some ds) : ds = cs := by
  fun_induction Pattern.read? cs generalizing p ds with
  | case1 =>
      cases read
      simpa using literal.symm
  | case3 | case5 | case7 => cases read
  | case2 rest | case4 rest | case6 | case8 =>
      obtain ⟨_, _, rfl⟩ := Option.map_eq_some_iff.mp read
      simp [Token.char?] at literal
  | case9 c rest _ _ _ _ _ ih =>
      obtain ⟨p, own, rfl⟩ := Option.map_eq_some_iff.mp read
      simp only [List.mapM_cons, Token.char?, Option.bind_eq_bind, Option.bind_some,
        Option.pure_def, Option.bind_eq_some_iff, Option.some.injEq] at literal
      obtain ⟨ds, later, rfl⟩ := literal
      rw [ih own later]

/-- A piece without special characters is the pattern itself. -/
theorem eq_of_read?_literal {cs : List Char} (read : Piece.read? cs = some (.literal name)) :
    name.toList = cs := by
  simp only [Piece.read?] at read
  split_ifs at read
  · cases read
  · obtain ⟨p, own, piece⟩ := Option.map_eq_some_iff.mp read
    split at piece
    · next name' literal =>
        cases piece
        obtain ⟨ds, chars, rfl⟩ := Option.map_eq_some_iff.mp literal
        rw [String.toList_ofList, eq_of_mapM_char own chars]
    · cases piece

theorem eq_of_read?_directories {pattern : String}
    (read : Piece.read? pattern.toList = some .directories) : pattern = "**" := by
  simp only [Piece.read?] at read
  split_ifs at read with both
  · exact String.toList_injective both
  · obtain ⟨p, _, piece⟩ := Option.map_eq_some_iff.mp read
    split at piece <;> cases piece

theorem accepts_of_mem_dots {p : Pattern} (mem : name ∈ (Piece.pattern p).dots) :
    (name = "." ∨ name = "..") ∧ p.accepts name.toList := by
  simp only [Piece.dots] at mem
  split at mem
  · next own =>
      obtain rfl := Piece.pattern.inj own
      obtain ⟨dot, accepts⟩ := List.mem_filter.mp mem
      exact ⟨by simpa using dot, accepts⟩
  · exact absurd mem List.not_mem_nil

theorem legal_of_mem_childNames (sound : t.Sound) (mem : name ∈ childNames t cwd path) :
    LegalName name := by
  simp only [childNames] at mem
  split at mem
  · next entries listed =>
      obtain ⟨e, inside, rfl⟩ := List.mem_map.mp (List.mem_mergeSort.mp mem)
      exact sound.legal_of_list listed inside
  · exact absurd mem List.not_mem_nil

theorem mem_search_nil {fuel : Nat} (mem : q ∈ search t cwd fuel path []) : q = path := by
  cases fuel with
  | zero => simp [search] at mem
  | succ fuel => simpa [search] using mem

/-- What one piece finds in a directory are names that it accepts. -/
theorem mem_search_last {piece : Piece} {pattern : String} {fuel : Nat} (sound : t.Sound)
    (onward : path ≠ ".") (filled : pattern ≠ "") (plain : '/' ∉ pattern.toList)
    (read : Piece.read? pattern.toList = some piece) (single : piece ≠ .directories)
    (mem : q ∈ search t cwd fuel path [piece]) :
    ∃ name, PlainName name ∧ Matches pattern name ∧ q = Path.join path name := by
  cases fuel with
  | zero => simp [search] at mem
  | succ fuel =>
      have joins (name : String) : below path name = Path.join path name := if_neg onward
      cases piece with
      | directories => exact absurd rfl single
      | literal name =>
          have own : name = pattern := String.toList_injective (eq_of_read?_literal read)
          subst own
          have found : q ∈ search t cwd fuel (below path name) [] := by
            simp only [search] at mem
            split_ifs at mem
            all_goals first | exact mem | exact absurd mem List.not_mem_nil
          refine ⟨name, ⟨filled, plain⟩, ⟨_, read, single, by simp [Piece.acceptsName]⟩, ?_⟩
          rw [← joins, mem_search_nil found]
      | pattern p =>
          simp only [search] at mem
          obtain mem | mem := List.mem_append.mp mem
          all_goals obtain ⟨name, mem, found⟩ := List.mem_flatMap.mp mem
          · obtain ⟨child, accepts⟩ := List.mem_filter.mp mem
            have legal := legal_of_mem_childNames sound child
            refine ⟨name, legal.toPlainName, ⟨_, read, single, accepts⟩, ?_⟩
            rw [← joins, mem_search_nil found]
          · split_ifs at mem
            · obtain ⟨dot, accepts⟩ := accepts_of_mem_dots mem
              have own : PlainName name := by
                obtain rfl | rfl := dot
                all_goals exact ⟨by decide, by decide⟩
              exact ⟨name, own, ⟨_, read, single, accepts⟩, mem_search_nil found⟩
            · exact absurd mem List.not_mem_nil

/-- Two asterisks find the directories below a path, each before what is below it. -/
theorem search_directories (onward : path ≠ ".") (fuel : Nat) :
    search t cwd (fuel + 1) path [.directories] =
      (childNames t cwd path).flatMap fun name =>
        if t.isDirectory cwd (Path.join path name) then
          Path.join path name :: search t cwd fuel (Path.join path name) [.directories]
        else [] := by
  have joins (name : String) : below path name = Path.join path name := if_neg onward
  simp only [search, joins]
  congr 1
  funext name
  split_ifs <;> rfl

/-! ## Other spellings of a joined path -/

theorem partsOf_join (plain : '/' ∉ name.toList) (root : String) :
    ∃ parts, partsOf (Path.join root name) = parts ++ [name.toList] := by
  by_cases left : root = ""
  · subst left
    rw [Path.join_empty plain, partsOf, Path.isAbsolute_plain plain]
    exact ⟨[], Path.splitSlash_plain plain⟩
  · obtain ⟨first, rest, whole, _⟩ := Path.splitSlash_join left plain
    simp only [partsOf]
    split_ifs with absolute
    · cases eq : (Path.join root name).toList with
      | nil => simp [Path.isAbsolute, eq] at absolute
      | cons c cs =>
          obtain rfl : c = '/' := by simpa [Path.isAbsolute, eq] using absolute
          rw [eq, Path.splitSlash_slash] at whole
          exact ⟨rest, (List.cons.inj whole).2⟩
    · exact ⟨first :: rest, whole⟩

theorem pieces_below (plain : PlainName name) (path : String) :
    ∃ front, FileTree.pieces (below path name) = front ++ [name] := by
  simp only [below]
  split_ifs
  · obtain ⟨front, eq, _⟩ := FileTree.pieces_join plain ""
    rw [Path.join_empty plain.plain] at eq
    exact ⟨front, eq⟩
  · obtain ⟨front, eq, _⟩ := FileTree.pieces_join plain path
    exact ⟨front, eq⟩

/-- Another way to write a path: the same names, the last as it stands. -/
structure Rewritten (path q : String) : Prop where
  filled : q ≠ ""
  onward : q ≠ "."
  absolute : Path.isAbsolute q = Path.isAbsolute path
  names : FileTree.steps q = FileTree.steps path
  last : ∃ name front front', FileTree.pieces path = front ++ [name] ∧
    FileTree.pieces q = front' ++ [name] ∧ name ≠ "."

theorem Spells.rewritten {root : String} (plain : PlainName name) (other : name ≠ ".")
    (spells : Spells (start (Path.join root name)) (partsOf (Path.join root name)) q) :
    Rewritten (Path.join root name) q := by
  obtain ⟨parts, eq⟩ := partsOf_join plain.plain root
  have left : start (Path.join root name) ≠ "" := by
    simp only [start]
    split_ifs <;> decide
  obtain ⟨filled, absolute, names⟩ := spells.names left fun _ => plain_of_mem_partsOf
  rw [steps_start, List.nil_append, steps_partsOf] at names
  obtain ⟨front, last, own⟩ := FileTree.pieces_join plain root
  rw [eq] at spells
  obtain ⟨before, _, rfl⟩ := spells.last
  rw [String.ofList_toList] at filled absolute names ⊢
  obtain ⟨front', last'⟩ := pieces_below plain before
  refine ⟨filled, ?_, absolute.trans (isAbsolute_start _), names,
    name, front, front', last, last', other⟩
  intro dot
  rw [dot, FileTree.steps, FileTree.steps, last] at names
  have mem : name ∈ (front ++ [name]).filter (· ≠ ".") := by simp [other]
  rw [← names] at mem
  revert mem
  simp [FileTree.pieces, Path.splitSlash]

section

variable {n : Node} {l x : Location} {follow : Bool}

theorem Rewritten.directory (rewritten : Rewritten path q) (passable : FileTree.Passable path)
    (leads : t.directory cwd q = .ok l) : t.directory cwd path = .ok l := by
  obtain ⟨_, ends⟩ := FileTree.directory_iff.mp leads
  rw [FileTree.origin, rewritten.absolute, rewritten.names] at ends
  exact FileTree.directory_iff.mpr ⟨passable, ends⟩

theorem Rewritten.find (rewritten : Rewritten path q) (passable : FileTree.Passable path)
    (found : t.find cwd follow q = .ok (x, n)) : t.find cwd follow path = .ok (x, n) := by
  have ends := FileTree.find_eq_ok.mp found
  obtain ⟨name, front, front', last, last', other⟩ := rewritten.last
  have same : FileTree.origin cwd path = FileTree.origin cwd q := by
    rw [FileTree.origin, FileTree.origin, rewritten.absolute]
  have names := rewritten.names
  simp only [FileTree.steps, last, last', List.filter_append] at names
  rw [FileTree.find_eq_ok, FileTree.resolve_congr passable (FileTree.passable_of_resolve ends) same
    last last' (List.append_cancel_right names.symm)]
  exact ends

end

end DecodePipeline.Glob
