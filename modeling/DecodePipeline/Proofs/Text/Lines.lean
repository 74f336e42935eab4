import DecodePipeline.Text.Lines
import Mathlib.Data.List.Basic

/-!
The lines of a text by a grammar of its own, and how a text that is put together from two with a line feed
between them falls into pieces: at the seam no piece is joined, whatever stands on either side.
-/

namespace DecodePipeline.Text

/-- The text is these lines: each is ended by a line feed, or by a carriage return and a line feed, but
the last may do without if it is not empty. A carriage return that no line feed follows ends nothing. -/
inductive Lines : List Char → List (List Char) → Prop
  | nil : Lines [] []
  | last {line : List Char} (filled : line ≠ []) (within : '\n' ∉ line) : Lines line [line]
  | feed {line text : List Char} {ls : List (List Char)} (within : '\n' ∉ line)
      (bare : line.getLast? ≠ some '\r') (rest : Lines text ls) :
      Lines (line ++ '\n' :: text) (line :: ls)
  | returnFeed {line text : List Char} {ls : List (List Char)} (within : '\n' ∉ line)
      (rest : Lines text ls) : Lines (line ++ '\r' :: '\n' :: text) (line :: ls)

variable {line text piece : List Char} {ls : List (List Char)}

theorem Lines.newline_notMem (is : Lines text ls) (mem : line ∈ ls) : '\n' ∉ line := by
  induction is with
  | nil => simp at mem
  | last _ within => exact List.mem_singleton.mp mem ▸ within
  | feed within _ _ ih | returnFeed within _ ih =>
      obtain rfl | mem := List.mem_cons.mp mem
      · exact within
      · exact ih mem

theorem splitLineFeeds_ne_nil (text : List Char) : splitLineFeeds text ≠ [] := by
  cases text with
  | nil => simp [splitLineFeeds]
  | cons c text =>
      simp only [splitLineFeeds]
      split
      · simp
      · split <;> simp

theorem splitLineFeeds_append (a b : List Char) :
    splitLineFeeds (a ++ '\n' :: b) = splitLineFeeds a ++ splitLineFeeds b := by
  induction a with
  | nil => simp [splitLineFeeds]
  | cons c a ih =>
      obtain ⟨piece, pieces, eq⟩ := List.exists_cons_of_ne_nil (splitLineFeeds_ne_nil a)
      simp only [List.cons_append, splitLineFeeds, ih, eq]
      split <;> rfl

theorem splitLineFeeds_of_notMem (within : '\n' ∉ line) : splitLineFeeds line = [line] := by
  induction line with
  | nil => rfl
  | cons c line ih =>
      obtain ⟨here, behind⟩ := List.ne_and_not_mem_of_not_mem_cons within
      simp [splitLineFeeds, ih behind, here.symm]

theorem dropFinalReturn_append (line : List Char) : dropFinalReturn (line ++ ['\r']) = line := by
  simp [dropFinalReturn]

theorem dropFinalReturn_of_bare (bare : line.getLast? ≠ some '\r') : dropFinalReturn line = line :=
  if_neg bare

theorem lines_append (within : '\n' ∉ piece) (text : List Char) :
    lines (piece ++ '\n' :: text) = dropFinalReturn piece :: lines text := by
  obtain ⟨first, pieces, eq⟩ := List.exists_cons_of_ne_nil (splitLineFeeds_ne_nil text)
  rw [lines, splitLineFeeds_append, splitLineFeeds_of_notMem within, lines, eq]
  rfl

/-- A text holds no line feed, or it is a text behind its first one. -/
theorem feed_induction {motive : List Char → Prop} (last : ∀ line, '\n' ∉ line → motive line)
    (ended : ∀ line text, '\n' ∉ line → motive text → motive (line ++ '\n' :: text)) (text : List Char) :
    motive text := by
  induction length : text.length using Nat.strongRecOn generalizing text with
  | ind n ih =>
      by_cases mem : '\n' ∈ text
      · obtain ⟨line, rest, rfl, within⟩ := List.eq_append_cons_of_mem mem
        have shorter : rest.length < n := by
          simp only [List.length_append, List.length_cons] at length
          omega
        exact ended line rest within (ih rest.length shorter rest rfl)
      · exact last text mem

theorem lines_are_lines (text : List Char) : Lines text (lines text) := by
  induction text using feed_induction with
  | last line within =>
      rw [lines, splitLineFeeds_of_notMem within]
      cases line with
      | nil => exact .nil
      | cons c line => exact .last (List.cons_ne_nil c line) within
  | ended line text within ih =>
      rw [lines_append within]
      by_cases returned : line.getLast? = some '\r'
      · have eq : line.dropLast ++ ['\r'] = line := List.dropLast_append_getLast? '\r' returned
        have within' : '\n' ∉ line.dropLast := fun mem => within (List.dropLast_subset line mem)
        rw [← eq, dropFinalReturn_append, List.append_assoc]
        exact .returnFeed within' ih
      · rw [dropFinalReturn_of_bare returned]
        exact .feed within returned ih

/-- The grammar leaves no choice. -/
theorem Lines.eq_lines (is : Lines text ls) : ls = lines text := by
  induction is with
  | nil => rfl
  | @last line filled within =>
      rw [lines, splitLineFeeds_of_notMem within, linesOfPieces, if_neg (by simpa using filled)]
  | feed within bare _ ih => rw [lines_append within, dropFinalReturn_of_bare bare, ih]
  | @returnFeed line text _ within _ ih =>
      have within' : '\n' ∉ line ++ ['\r'] := by simp [within]
      have seam : line ++ '\r' :: '\n' :: text = line ++ ['\r'] ++ '\n' :: text := by simp
      rw [seam, lines_append within', dropFinalReturn_append, ih]

theorem lines_iff_eq : Lines text ls ↔ ls = lines text := by
  constructor
  · exact Lines.eq_lines
  · rintro rfl
    exact lines_are_lines text

end DecodePipeline.Text
