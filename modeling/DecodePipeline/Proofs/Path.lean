import DecodePipeline.Path
import Mathlib.Data.String.Basic
import Mathlib.Data.List.TakeWhile

/-!
Paths that are made by joining, and names that are taken apart at their last dot. What is joined to a
path comes back as its last component.
-/

namespace DecodePipeline.Path

/-! ## Pieces between slashes -/

section

variable {a b : List Char}

theorem splitSlash_ne_nil (cs : List Char) : splitSlash cs ≠ [] := by
  fun_cases splitSlash cs <;> simp_all

@[simp]
theorem splitSlash_slash (cs : List Char) : splitSlash ('/' :: cs) = [] :: splitSlash cs := by
  simp [splitSlash]

theorem splitSlash_plain (plain : '/' ∉ b) : splitSlash b = [b] := by
  induction b with
  | nil => rfl
  | cons c cs ih =>
      obtain ⟨other, rest⟩ := List.ne_and_not_mem_of_not_mem_cons plain
      simp [splitSlash, Ne.symm other, ih rest]

theorem splitSlash_append (a b : List Char) :
    splitSlash (a ++ '/' :: b) = splitSlash a ++ splitSlash b := by
  induction a with
  | nil => simp [splitSlash]
  | cons c cs ih =>
      simp only [List.cons_append, splitSlash, ih]
      split
      · rfl
      · obtain ⟨piece, rest, eq⟩ := List.exists_cons_of_ne_nil (splitSlash_ne_nil cs)
        simp [eq]

theorem slash_notMem_of_mem_splitSlash {piece cs : List Char} (mem : piece ∈ splitSlash cs) :
    '/' ∉ piece := by
  induction cs generalizing piece with
  | nil => simp [List.mem_singleton.mp mem]
  | cons c cs ih =>
      simp only [splitSlash] at mem
      split at mem
      · obtain rfl | mem := List.mem_cons.mp mem
        · exact List.not_mem_nil
        · exact ih mem
      · next other =>
          obtain ⟨head, rest, eq⟩ := List.exists_cons_of_ne_nil (splitSlash_ne_nil cs)
          rw [eq] at mem ih
          obtain rfl | mem := List.mem_cons.mp mem
          · exact List.not_mem_cons_of_ne_of_not_mem (Ne.symm other) (ih List.mem_cons_self)
          · exact ih (List.mem_cons_of_mem _ mem)

/-- All but the slashes of a text is in its pieces. -/
theorem exists_mem_splitSlash {c : Char} {cs : List Char} (mem : c ∈ cs) (other : c ≠ '/') :
    ∃ piece ∈ splitSlash cs, c ∈ piece := by
  induction cs with
  | nil => exact absurd mem List.not_mem_nil
  | cons d cs ih =>
      obtain ⟨first, rest, eq⟩ := List.exists_cons_of_ne_nil (splitSlash_ne_nil cs)
      simp only [splitSlash, eq] at ih ⊢
      obtain rfl | mem := List.mem_cons.mp mem
      · exact ⟨c :: first, by simp [other], List.mem_cons_self⟩
      · obtain ⟨piece, own, inside⟩ := ih mem
        split
        · exact ⟨piece, List.mem_cons_of_mem _ own, inside⟩
        · obtain rfl | own := List.mem_cons.mp own
          · exact ⟨_, List.mem_cons_self, List.mem_cons_of_mem _ inside⟩
          · exact ⟨piece, List.mem_cons_of_mem _ own, inside⟩

end

/-! ## Joining -/

/-- What stands in front of the right side of a joined path. -/
def lead (a : String) : List Char :=
  if a.isEmpty || a.toList.getLast? = some '/' then a.toList else a.toList ++ ['/']

section

variable {a b b' : String}

theorem isAbsolute_plain (plain : '/' ∉ b.toList) : isAbsolute b = false := by
  cases eq : b.toList with
  | nil => simp [isAbsolute, eq]
  | cons c cs =>
      rw [eq] at plain
      simpa [isAbsolute, eq] using Ne.symm (List.ne_of_not_mem_cons plain)

theorem toList_join (plain : '/' ∉ b.toList) : (join a b).toList = lead a ++ b.toList := by
  simp only [join, isAbsolute_plain plain, lead, Bool.false_eq_true, if_false]
  split <;> simp

theorem join_ne_empty (filled : b ≠ "") (a : String) : join a b ≠ "" := by
  simp only [join]
  split_ifs <;> simp [filled]

theorem exists_join_eq (plain : '/' ∉ b.toList) (a : String) : ∃ c, join a b = a ++ c := by
  simp only [join, isAbsolute_plain plain, Bool.false_eq_true, if_false]
  split
  · exact ⟨b, rfl⟩
  · exact ⟨"/" ++ b, String.append_assoc⟩

/-- A path that is joined to ends, before the last slash, in its own pieces. -/
theorem lead_eq (left : a ≠ "") : ∃ front : List Char, lead a = front ++ ['/'] ∧
    (a.toList = front ∨ a.toList = front ++ ['/']) := by
  have filled : a.isEmpty = false := by simpa [String.isEmpty_iff] using left
  simp only [lead, filled, Bool.false_or, decide_eq_true_eq]
  split
  · next slash =>
      obtain ⟨front, eq⟩ := List.getLast?_eq_some_iff.mp slash
      exact ⟨front, eq, .inr eq⟩
  · exact ⟨a.toList, rfl, .inl rfl⟩

theorem join_ne_dot (left : a ≠ "") (plain : '/' ∉ b.toList) : join a b ≠ "." := by
  intro dot
  obtain ⟨front, eq, _⟩ := lead_eq left
  have lists := toList_join (a := a) plain
  rw [dot, eq] at lists
  have slash : '/' ∈ ".".toList := by simp [lists]
  revert slash
  decide

theorem join_empty (plain : '/' ∉ b.toList) : join "" b = b :=
  String.toList_injective (toList_join plain)

theorem join_injective (plain : '/' ∉ b.toList) (plain' : '/' ∉ b'.toList)
    (same : join a b = join a b') : b = b' := by
  have lists : lead a ++ b.toList = lead a ++ b'.toList := by
    rw [← toList_join plain, ← toList_join plain', same]
  exact String.toList_injective (List.append_cancel_left lists)

theorem isAbsolute_join (left : a ≠ "") (plain : '/' ∉ b.toList) :
    isAbsolute (join a b) = isAbsolute a := by
  obtain ⟨front, eq, own⟩ := lead_eq left
  have filled : a.toList ≠ [] := by simpa using left
  simp only [isAbsolute, toList_join plain, eq]
  obtain own | own := own
  all_goals rw [own] at filled ⊢
  · obtain ⟨c, cs, rfl⟩ := List.exists_cons_of_ne_nil filled
    rfl
  · cases front <;> rfl

/-- Joining adds one piece; an empty one at the end is given up for it. -/
theorem splitSlash_join (left : a ≠ "") (plain : '/' ∉ b.toList) :
    ∃ first rest, splitSlash (join a b).toList = first :: (rest ++ [b.toList]) ∧
      (splitSlash a.toList = first :: rest ∨ splitSlash a.toList = first :: (rest ++ [[]])) := by
  obtain ⟨front, eq, own⟩ := lead_eq left
  obtain ⟨first, rest, pieces⟩ := List.exists_cons_of_ne_nil (splitSlash_ne_nil front)
  refine ⟨first, rest, ?_, ?_⟩
  · rw [toList_join plain, eq, List.append_assoc, List.singleton_append, splitSlash_append,
      splitSlash_plain plain, pieces, List.cons_append]
  · obtain own | own := own
    · exact .inl (own ▸ pieces)
    · refine .inr ?_
      rw [own, splitSlash_append, pieces]
      rfl

/-- Joining adds the component that the right side stands for. -/
theorem components_join (left : a ≠ "") (plain : '/' ∉ b.toList) :
    components (join a b) = components a ++ (pieceComponent b.toList).toList := by
  obtain ⟨first, rest, whole, own⟩ := splitSlash_join left plain
  have nothing : pieceComponent [] = none := rfl
  simp only [components, whole, isAbsolute_join left plain]
  obtain own | own := own
  all_goals
    rw [own]
    dsimp only
    split_ifs
    all_goals simp [List.filterMap_append, List.filterMap_cons, nothing]
    all_goals cases pieceComponent b.toList <;> cases pieceComponent first <;> rfl

theorem pieceComponent_name (filled : b ≠ "") (dot : b ≠ ".") (dots : b ≠ "..") :
    pieceComponent b.toList = some (.normal b) := by
  have dot : b.toList ≠ ['.'] := fun eq => dot (String.toList_injective eq)
  have dots : b.toList ≠ ['.', '.'] := fun eq => dots (String.toList_injective eq)
  simp [pieceComponent, filled, dot, dots]

/-- What a name stands for, a single dot for nothing and two for the directory above. -/
theorem pieceComponent_cases (filled : b ≠ "") :
    b = "." ∧ pieceComponent b.toList = none ∨ b = ".." ∧ pieceComponent b.toList = some .parent ∨
      pieceComponent b.toList = some (.normal b) := by
  by_cases dot : b = "."
  · subst dot
    exact .inl ⟨rfl, rfl⟩
  by_cases dots : b = ".."
  · subst dots
    exact .inr (.inl ⟨rfl, rfl⟩)
  exact .inr (.inr (pieceComponent_name filled dot dots))

theorem pieceComponent_injective (filled : b ≠ "") (filled' : b' ≠ "")
    (same : (pieceComponent b.toList).toList = (pieceComponent b'.toList).toList) : b = b' := by
  obtain ⟨dot, own⟩ | ⟨dots, own⟩ | own := pieceComponent_cases filled
  all_goals
    obtain ⟨dot', own'⟩ | ⟨dots', own'⟩ | own' := pieceComponent_cases filled'
    all_goals simp_all

theorem pieceComponent_ne_current (piece : List Char) :
    (pieceComponent piece).toList ≠ [.current] := by
  simp only [pieceComponent]
  split_ifs <;> simp

theorem components_plain (plain : '/' ∉ b.toList) (dot : b ≠ ".") :
    components b = (pieceComponent b.toList).toList := by
  have other : b.toList ≠ ['.'] := fun eq => dot (String.toList_injective eq)
  simp only [components, splitSlash_plain plain, isAbsolute_plain plain, other, Bool.false_eq_true,
    if_false]
  cases own : pieceComponent b.toList <;> simp [own]

/-- A name that is joined to a path is its last component. -/
theorem components_join_name (filled : b ≠ "") (plain : '/' ∉ b.toList) (dot : b ≠ ".")
    (dots : b ≠ "..") (a : String) : components (join a b) = components a ++ [.normal b] := by
  have stands := pieceComponent_name filled dot dots
  by_cases empty : a = ""
  · subst empty
    rw [join_empty plain, components_plain plain dot, stands]
    rfl
  · rw [components_join empty plain, stands]
    rfl

/-- Different names that are joined to a path give different components. -/
theorem components_join_injective (filled : b ≠ "") (plain : '/' ∉ b.toList) (filled' : b' ≠ "")
    (plain' : '/' ∉ b'.toList) (same : components (join a b) = components (join a b')) : b = b' := by
  by_cases empty : a = ""
  · subst empty
    rw [join_empty plain, join_empty plain'] at same
    by_cases dot : b = "." <;> by_cases dot' : b' = "."
    · rw [dot, dot']
    · rw [dot, components_plain plain' dot'] at same
      exact absurd same.symm (pieceComponent_ne_current _)
    · rw [dot', components_plain plain dot] at same
      exact absurd same (pieceComponent_ne_current _)
    · rw [components_plain plain dot, components_plain plain' dot'] at same
      exact pieceComponent_injective filled filled' same
  · rw [components_join empty plain, components_join empty plain'] at same
    exact pieceComponent_injective filled filled' (List.append_cancel_left same)

theorem fileName?_join (filled : b ≠ "") (plain : '/' ∉ b.toList) (dot : b ≠ ".") (dots : b ≠ "..") :
    fileName? (join a b) = some b := by
  simp [fileName?, components_join_name filled plain dot dots]

end

/-! ## Stem and extension -/

theorem splitExtension_eq_some {name stem ext : String}
    (split_ : splitExtension name = (stem, some ext)) :
    name = stem ++ "." ++ ext ∧ stem ≠ "" ∧ '.' ∉ ext.toList := by
  simp only [splitExtension] at split_
  split at split_
  · next before eq =>
      have first : before ≠ [] := by
        rintro rfl
        simp at split_
      rw [if_neg first, Prod.mk.injEq, Option.some.injEq] at split_
      obtain ⟨rfl, rfl⟩ := split_
      refine ⟨String.toList_injective ?_, by simpa using first, fun dot => ?_⟩
      · calc name.toList
          _ = (name.toList.reverse.takeWhile (· ≠ '.') ++
                name.toList.reverse.dropWhile (· ≠ '.')).reverse := by
              rw [List.takeWhile_append_dropWhile, List.reverse_reverse]
          _ = _ := by
              rw [eq]
              simp
      · rw [String.toList_ofList, List.mem_reverse] at dot
        simpa using List.mem_takeWhile_imp dot
  · cases split_

end DecodePipeline.Path
