import DecodePipeline.Options
import DecodePipeline.Proofs.Text.Blank
import DecodePipeline.Proofs.Text.Lines

/-!
Options read from a text. What ends a line is white space, so an option does not tell how its line ended,
and the pieces between line feeds hold the same options as the lines. That is why options of texts joined by
a line feed are those of the one and then those of the other, and why options that were read are read again.
-/

namespace DecodePipeline.Options

open Text (Bare Trims Lines trimChars trimChars_eq trims_trimChars)

variable {line core cs : List Char} {lines : List (List Char)} {options : List String}

/-- An option as it is passed on. -/
structure IsOption (cs : List Char) : Prop where
  dashed : dashes <+: cs
  line : '\n' ∉ cs
  bare : Bare cs

/-- What is on a line, with dashes in front of it if it has none. -/
def withDashes (core : List Char) : List Char :=
  if dashes <+: core then core else dashes ++ core

/-- The options of the lines, in their order: none for a line that is blank or a comment when its ends are
trimmed, and one for every other line. -/
inductive Reads : List (List Char) → List String → Prop
  | nil : Reads [] []
  | skip {line core : List Char} {lines : List (List Char)} {options : List String}
      (trims : Trims line core) (idle : core = [] ∨ core.head? = some '#') (rest : Reads lines options) :
      Reads (line :: lines) options
  | take {line core : List Char} {lines : List (List Char)} {options : List String}
      (trims : Trims line core) (filled : core ≠ []) (plain : core.head? ≠ some '#')
      (rest : Reads lines options) :
      Reads (line :: lines) (String.ofList (withDashes core) :: options)

/-! ## One line -/

theorem ofLine_of_idle (trims : Trims line core) (idle : core = [] ∨ core.head? = some '#') :
    ofLine line = none := by
  rw [ofLine, trimChars_eq trims]
  obtain rfl | comment := idle
  · rfl
  · obtain ⟨rest, rfl⟩ := List.head?_eq_some_iff.mp comment
    rfl

theorem ofLine_of_plain (trims : Trims line core) (filled : core ≠ []) (plain : core.head? ≠ some '#') :
    ofLine line = some (withDashes core) := by
  rw [ofLine, trimChars_eq trims]
  split
  · contradiction
  · exact absurd rfl plain
  · simp only [List.isPrefixOf_iff_prefix, withDashes]

theorem ofLine_of_isOption (is : IsOption cs) : ofLine cs = some cs := by
  obtain ⟨rest, eq⟩ := is.dashed
  have plain : cs.head? ≠ some '#' := by simp [← eq, dashes]
  have filled : cs ≠ [] := by simp [← eq, dashes]
  rw [ofLine_of_plain is.bare.trims filled plain, withDashes, if_pos is.dashed]

theorem reads_filterMap (lines : List (List Char)) :
    Reads lines ((lines.filterMap ofLine).map String.ofList) := by
  induction lines with
  | nil => exact .nil
  | cons line lines ih =>
      have trims := trims_trimChars line
      by_cases idle : trimChars line = [] ∨ (trimChars line).head? = some '#'
      · rw [List.filterMap_cons_none (ofLine_of_idle trims idle)]
        exact .skip trims idle ih
      · obtain ⟨filled, plain⟩ := not_or.mp idle
        rw [List.filterMap_cons_some (ofLine_of_plain trims filled plain)]
        exact .take trims filled plain ih

theorem bare_dashes_append (bare : Bare core) : Bare (dashes ++ core) where
  head := by
    intro c head
    obtain rfl : '-' = c := Option.some.inj head
    decide
  last := by
    intro c last
    rw [List.getLast?_append] at last
    cases end' : core.getLast? with
    | none =>
        rw [end'] at last
        obtain rfl : '-' = c := Option.some.inj last
        decide
    | some d =>
        rw [end'] at last
        obtain rfl : d = c := Option.some.inj last
        exact bare.last d end'

theorem isOption_withDashes (within : '\n' ∉ core) (bare : Bare core) : IsOption (withDashes core) := by
  rw [withDashes]
  by_cases dashed : dashes <+: core
  · rw [if_pos dashed]
    exact ⟨dashed, within, bare⟩
  · rw [if_neg dashed]
    exact ⟨List.prefix_append dashes core, by simp [dashes, within], bare_dashes_append bare⟩

theorem Reads.isOption (reads : Reads lines options) (within : ∀ line ∈ lines, '\n' ∉ line) :
    ∀ option ∈ options, IsOption option.toList := by
  induction reads with
  | nil => simp
  | skip _ _ _ ih => exact ih fun line mem => within line (List.mem_cons_of_mem _ mem)
  | @take line core _ _ trims _ _ _ ih =>
      have outside : '\n' ∉ core := fun mem => within line List.mem_cons_self (trims.subset mem)
      intro option mem
      obtain rfl | mem := List.mem_cons.mp mem
      · rw [String.toList_ofList]
        exact isOption_withDashes outside trims.bare
      · exact ih (fun line mem => within line (List.mem_cons_of_mem _ mem)) option mem

/-! ## Pieces in place of lines -/

theorem ofLine_dropFinalReturn (line : List Char) : ofLine (Text.dropFinalReturn line) = ofLine line := by
  by_cases returned : line.getLast? = some '\r'
  · have eq : line.dropLast ++ ['\r'] = line := List.dropLast_append_getLast? '\r' returned
    have blank : Text.isBlank '\r' := by decide
    rw [← eq, Text.dropFinalReturn_append, ofLine, ofLine, Text.trimChars_append_blank _ blank]
  · rw [Text.dropFinalReturn_of_bare returned]

theorem filterMap_linesOfPieces (pieces : List (List Char)) :
    (Text.linesOfPieces pieces).filterMap ofLine = pieces.filterMap ofLine := by
  fun_induction Text.linesOfPieces pieces with
  | case1 => rfl
  | case2 last empty =>
      obtain rfl := List.isEmpty_iff.mp empty
      rfl
  | case3 => rfl
  | case4 piece pieces _ ih => rw [List.filterMap_cons, List.filterMap_cons, ofLine_dropFinalReturn, ih]

theorem parse_eq (text : String) :
    parse text = ((Text.splitLineFeeds text.toList).filterMap ofLine).map String.ofList := by
  rw [parse, Text.lines, filterMap_linesOfPieces]

theorem parse_append (a b : String) : parse (a ++ "\n" ++ b) = parse a ++ parse b := by
  have joined : (a ++ "\n" ++ b).toList = a.toList ++ '\n' :: b.toList := by simp
  rw [parse_eq, parse_eq, parse_eq, joined, Text.splitLineFeeds_append, List.filterMap_append,
    List.map_append]

theorem parse_of_isOption {option : String} (is : IsOption option.toList) : parse option = [option] := by
  rw [parse_eq, Text.splitLineFeeds_of_notMem is.line]
  simp [ofLine_of_isOption is]

/-- Options that are written one below the other are read as they are. -/
theorem parse_intercalate (all : ∀ option ∈ options, IsOption option.toList) :
    parse ("\n".intercalate options) = options := by
  induction options with
  | nil => rfl
  | cons option options ih =>
      have one := parse_of_isOption (all option List.mem_cons_self)
      have rest := ih fun other mem => all other (List.mem_cons_of_mem option mem)
      by_cases last : options = []
      · rw [last, String.intercalate_singleton, one]
      · rw [String.intercalate_cons_of_ne_nil last, parse_append, one, rest]
        rfl

theorem isOption_of_mem_parse (text : String) : ∀ option ∈ parse text, IsOption option.toList := by
  have within : ∀ line ∈ Text.lines text.toList, '\n' ∉ line := fun _ =>
    (Text.lines_are_lines text.toList).newline_notMem
  exact (reads_filterMap (Text.lines text.toList)).isOption within

/-- The options of a text are those of its lines in their order, each with dashes in front and on one line
without white space around it. A line feed between two texts keeps them apart, whatever carriage returns
stand at the seam, and options that are written one below the other are read as they are. -/
theorem parse_reads_lines (a b : String) :
    (∀ lines, Lines a.toList lines ↔ lines = Text.lines a.toList) ∧
      Reads (Text.lines a.toList) (parse a) ∧
      (∀ option ∈ parse a, ['-', '-'] <+: option.toList ∧ '\n' ∉ option.toList ∧ Bare option.toList) ∧
      parse (a ++ "\n" ++ b) = parse a ++ parse b ∧
      parse ("\n".intercalate (parse a)) = parse a := by
  refine ⟨fun _ => Text.lines_iff_eq, reads_filterMap _, ?_, parse_append a b, ?_⟩
  · intro option mem
    have is := isOption_of_mem_parse a option mem
    exact ⟨is.dashed, is.line, is.bare⟩
  · exact parse_intercalate (isOption_of_mem_parse a)

/-- A carriage return before the line feed that joins the texts, and lines of dashes alone. -/
theorem parse_reads_lines_seam :
    let a := "# comment\r\n\u00A0startFrameNumber=0 \r"
    let b := "\n--nbThread=1\r#\r\n-\r\n--"
    let options := ["--startFrameNumber=0", "--nbThread=1\r#", "---", "--"]
    parse (a ++ "\n" ++ b) = options ∧ parse ("\n".intercalate options) = options ∧
      "---" ∈ options ∧ ['-', '-'] <+: "---".toList ∧ '\n' ∉ "---".toList ∧ Bare "---".toList := by
  intro a b options
  have read : parse (a ++ "\n" ++ b) = options := by
    obtain ⟨_, _, _, append, _⟩ := parse_reads_lines a b
    rw [append]
    decide
  obtain ⟨_, _, form, _, again⟩ := parse_reads_lines (a ++ "\n" ++ b) ""
  rw [read] at form again
  have mem : "---" ∈ options := by decide
  exact ⟨read, again, mem, form "---" mem⟩

end DecodePipeline.Options
