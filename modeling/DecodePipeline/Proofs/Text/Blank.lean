import DecodePipeline.Text.Blank
import Mathlib.Data.List.TakeWhile

/-!
Trimming takes the white space off both ends and nothing else, so what it leaves is known by how the text
is made up.
-/

namespace DecodePipeline.Text

variable {c : Char} {cs core front back rest : List Char}

/-- There is no white space at either end. -/
structure Bare (cs : List Char) : Prop where
  head : ∀ c ∈ cs.head?, isBlank c = false
  last : ∀ c ∈ cs.getLast?, isBlank c = false

/-- The text is the core with white space around it. -/
structure Trims (cs core : List Char) : Prop where
  parts : ∃ front back, cs = front ++ core ++ back ∧ (∀ c ∈ front, isBlank c) ∧ ∀ c ∈ back, isBlank c
  bare : Bare core

theorem trimLeft_cons (visible : isBlank c = false) : trimLeft (c :: cs) = c :: cs :=
  List.dropWhile_cons_of_neg (by simp [visible])

theorem trimLeft_append (blank : ∀ c ∈ front, isBlank c) (head : ∀ c ∈ rest.head?, isBlank c = false) :
    trimLeft (front ++ rest) = rest := by
  rw [trimLeft, List.dropWhile_append_of_pos blank]
  cases rest with
  | nil => rfl
  | cons c rest => exact trimLeft_cons (head c rfl)

theorem exists_append_trimLeft (cs : List Char) :
    ∃ front, cs = front ++ trimLeft cs ∧ (∀ c ∈ front, isBlank c) ∧
      ∀ c ∈ (trimLeft cs).head?, isBlank c = false := by
  refine ⟨cs.takeWhile isBlank, List.takeWhile_append_dropWhile.symm, ?_, ?_⟩
  · intro c mem
    exact List.mem_takeWhile_imp mem
  · intro c head
    have stopped := List.head?_dropWhile_not isBlank cs
    rw [trimLeft, Option.mem_def] at head
    simpa only [head] using stopped

theorem trimChars_eq (trims : Trims cs core) : trimChars cs = core := by
  obtain ⟨front, back, rfl, before, after⟩ := trims.parts
  by_cases empty : core = []
  · subst empty
    have all : ∀ c ∈ front ++ back, isBlank c := by
      intro c mem
      exact (List.mem_append.mp mem).elim (before c) (after c)
    have nothing : trimLeft (front ++ back ++ []) = [] := trimLeft_append all (by simp)
    rw [List.append_nil] at nothing ⊢
    rw [trimChars, nothing]
    rfl
  · have head : ∀ c ∈ (core ++ back).head?, isBlank c = false := by
      obtain ⟨c, core, rfl⟩ := List.exists_cons_of_ne_nil empty
      exact trims.bare.head
    have last : ∀ c ∈ core.reverse.head?, isBlank c = false := by
      rw [List.head?_reverse]
      exact trims.bare.last
    rw [trimChars, List.append_assoc, trimLeft_append before head, trimRight, List.reverse_append]
    change (trimLeft (back.reverse ++ core.reverse)).reverse = core
    rw [trimLeft_append (fun c mem => after c (List.mem_reverse.mp mem)) last, List.reverse_reverse]

theorem trims_trimChars (cs : List Char) : Trims cs (trimChars cs) := by
  obtain ⟨front, eq, before, head⟩ := exists_append_trimLeft cs
  obtain ⟨back, eq', after, last⟩ := exists_append_trimLeft (trimLeft cs).reverse
  have core : trimChars cs = (trimLeft (trimLeft cs).reverse).reverse := rfl
  have inner : trimLeft cs = trimChars cs ++ back.reverse := by
    rw [core, ← List.reverse_append, ← eq', List.reverse_reverse]
  refine ⟨⟨front, back.reverse, ?_, before, ?_⟩, ?_, ?_⟩
  · rw [List.append_assoc, ← inner, ← eq]
  · intro c mem
    exact after c (List.mem_reverse.mp mem)
  · intro c mem
    refine head c ?_
    rw [inner, List.head?_append, Option.mem_def.mp mem]
    rfl
  · rw [core, List.getLast?_reverse]
    exact last

theorem Bare.trims (bare : Bare cs) : Trims cs cs := ⟨⟨[], [], by simp⟩, bare⟩

theorem trimChars_append_blank (cs : List Char) (blank : isBlank c) : trimChars (cs ++ [c]) = trimChars cs := by
  obtain ⟨⟨front, back, eq, before, after⟩, bare⟩ := trims_trimChars cs
  refine trimChars_eq ⟨⟨front, back ++ [c], ?_, before, ?_⟩, bare⟩
  · rw [← List.append_assoc, ← eq]
  · intro d mem
    obtain mem | mem := List.mem_append.mp mem
    · exact after d mem
    · exact List.mem_singleton.mp mem ▸ blank

theorem Trims.subset (trims : Trims cs core) : core ⊆ cs := by
  obtain ⟨front, back, rfl, _, _⟩ := trims.parts
  intro c mem
  simp [mem]

end DecodePipeline.Text
