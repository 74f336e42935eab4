import DecodePipeline.Proofs.Frame
import DecodePipeline.Validation
import Mathlib.Data.List.Chain
import Mathlib.Data.List.Forall2

/-!
What the check of an artifact set comes to. A set passes if it holds as many frames as it should, at least
one, their indices rise, and all of them are there.
-/

namespace DecodePipeline.Validation

variable {expected : Option Nat} {isThere : String → Bool} {set : ArtifactSet} {id : String}

/-- What is asked of an artifact set. -/
structure WellFormed (expected : Option Nat) (isThere : String → Bool) (set : ArtifactSet) : Prop where
  filled : set.files ≠ []
  counted : Frame.countMatches expected set.files.length
  rising : ∃ indices : List Nat,
    set.files.map (Frame.index? set.itemId) = indices.map some ∧ indices.Pairwise (· < ·)
  there : ∀ file ∈ set.files, isThere file

/-- Indices rise from a previous one if the first is above it and the others rise from there. -/
theorem isChain_cons_iff {previous : Option Nat} {index : Nat} {indices : List Nat} :
    (previous.toList ++ index :: indices).IsChain (· < ·) ↔
      ¬previous.any (index ≤ ·) ∧ (index :: indices).IsChain (· < ·) := by
  cases previous <;> simp

theorem firstFault_eq_none_iff {previous : Option Nat} {files : List String} :
    firstFault id isThere previous files = none ↔
      (∃ indices : List Nat, files.map (Frame.index? id) = indices.map some ∧
        (previous.toList ++ indices).IsChain (· < ·)) ∧ ∀ file ∈ files, isThere file := by
  induction files generalizing previous with
  | nil => cases previous <;> simp [firstFault]
  | cons file files ih =>
      simp only [firstFault]
      cases own : Frame.index? id file with
      | none =>
          refine iff_of_false (by simp) ?_
          rintro ⟨⟨indices, named, _⟩, _⟩
          cases indices <;> simp [own] at named
      | some index =>
          dsimp only
          have rising : (∃ indices : List Nat,
              (file :: files).map (Frame.index? id) = indices.map some ∧
                (previous.toList ++ indices).IsChain (· < ·)) ↔
              ¬previous.any (index ≤ ·) ∧ ∃ indices : List Nat,
                files.map (Frame.index? id) = indices.map some ∧
                  ((some index).toList ++ indices).IsChain (· < ·) := by
            constructor
            · rintro ⟨indices, named, chain⟩
              obtain _ | ⟨first, indices⟩ := indices
              · simp at named
              · simp only [List.map_cons, own, List.cons.injEq, Option.some.injEq] at named
                obtain ⟨rfl, named⟩ := named
                obtain ⟨above, chain⟩ := isChain_cons_iff.mp chain
                exact ⟨above, indices, named, chain⟩
            · rintro ⟨above, indices, named, chain⟩
              exact ⟨index :: indices, by simp [own, named], isChain_cons_iff.mpr ⟨above, chain⟩⟩
          rw [rising, List.forall_mem_cons]
          split_ifs with low here
          · simp [low]
          · simp [low, here, ih]
          · simp [here]

/-- The check lets through what is well formed and nothing else. -/
theorem check_eq_ok_iff : check expected isThere set = .ok () ↔ WellFormed expected isThere set := by
  have passes : check expected isThere set = .ok () ↔ reason? expected isThere set = none := by
    simp only [check]
    cases reason? expected isThere set <;> simp
  rw [passes, reason?]
  split_ifs with empty counted
  · exact iff_of_false (by simp) fun formed => formed.filled empty
  · rw [firstFault_eq_none_iff]
    simp only [Option.toList_none, List.nil_append, List.isChain_iff_pairwise]
    exact ⟨fun ⟨rising, there⟩ => ⟨empty, counted, rising, there⟩,
      fun formed => ⟨formed.rising, formed.there⟩⟩
  · exact iff_of_false (by simp) fun formed => counted formed.counted

/-- A file is named as a frame of an item, with this numeral for its index. -/
def Named (id file : String) (ds : List Char) : Prop :=
  Frame.Numeral ds ∧ Path.fileName? file = some (Frame.spelled id ds)

theorem map_index?_eq_iff {files : List String} {indices : List Nat} :
    files.map (Frame.index? id) = indices.map some ↔
      ∃ numerals, List.Forall₂ (Named id) files numerals ∧ numerals.map Decimal.value = indices := by
  induction files generalizing indices with
  | nil =>
      constructor
      · intro none
        exact ⟨[], .nil, (List.map_eq_nil_iff.mp none.symm).symm⟩
      · rintro ⟨_, ⟨⟩, rfl⟩
        rfl
  | cons file files ih =>
      constructor
      · intro read
        obtain _ | ⟨index, indices⟩ := indices
        · simp at read
        · obtain ⟨own, others⟩ := List.cons.inj read
          obtain ⟨ds, numeral, name, rfl⟩ := Frame.index?_eq_some_iff.mp own
          obtain ⟨numerals, named, rfl⟩ := ih.mp others
          exact ⟨ds :: numerals, .cons ⟨numeral, name⟩ named, rfl⟩
      · rintro ⟨_, named, rfl⟩
        obtain _ | ⟨⟨numeral, name⟩, named⟩ := named
        have own := Frame.index?_eq_some_iff.mpr ⟨_, numeral, name, rfl⟩
        rw [List.map_cons, own, ih.mpr ⟨_, named, rfl⟩]
        rfl

theorem check_eq_error {fault : Fault} (refused : check expected isThere set = .error fault) :
    ∃ reason, fault = .invalid set.itemId reason := by
  unfold check at refused
  split at refused
  · next reason _ => exact ⟨reason, (Except.error.inj refused).symm⟩
  · simp at refused

/-- A set passes exactly if it holds a frame, as many as are expected, all named for the item with numbers
that rise, and all there. Any other set is refused with a fault that carries its id. -/
theorem passes_iff_well_formed (expected : Option Nat) (isThere : String → Bool) (set : ArtifactSet) :
    (check expected isThere set = .ok () ↔
      set.files ≠ [] ∧ (∀ n, expected = some n → set.files.length = n) ∧
        (∃ numerals, List.Forall₂ (Named set.itemId) set.files numerals ∧
          (numerals.map Decimal.value).Pairwise (· < ·)) ∧
        ∀ file ∈ set.files, isThere file) ∧
    (check expected isThere set ≠ .ok () ↔
      ∃ reason, check expected isThere set = .error (.invalid set.itemId reason)) := by
  have counted (filled : set.files ≠ []) : Frame.countMatches expected set.files.length ↔
      ∀ n, expected = some n → set.files.length = n := by
    have some : 0 < set.files.length := List.length_pos_of_ne_nil filled
    cases expected <;> simp [Frame.countMatches, some]
  have named : (∃ indices : List Nat, set.files.map (Frame.index? set.itemId) = indices.map some ∧
        indices.Pairwise (· < ·)) ↔
      ∃ numerals, List.Forall₂ (Named set.itemId) set.files numerals ∧
        (numerals.map Decimal.value).Pairwise (· < ·) := by
    simp only [map_index?_eq_iff]
    exact ⟨fun ⟨_, ⟨numerals, named, eq⟩, rises⟩ => ⟨numerals, named, eq ▸ rises⟩,
      fun ⟨numerals, named, rises⟩ => ⟨_, ⟨numerals, named, rfl⟩, rises⟩⟩
  constructor
  · rw [check_eq_ok_iff]
    constructor
    · intro formed
      exact ⟨formed.filled, (counted formed.filled).mp formed.counted, named.mp formed.rising,
        formed.there⟩
    · rintro ⟨filled, count, rises, there⟩
      exact ⟨filled, (counted filled).mpr count, named.mpr rises, there⟩
  · constructor
    · intro refused
      cases checked : check expected isThere set with
      | ok => exact absurd checked refused
      | error fault =>
          obtain ⟨reason, rfl⟩ := check_eq_error checked
          exact ⟨reason, rfl⟩
    · rintro ⟨reason, refused⟩
      simp [refused]

end DecodePipeline.Validation
