import DecodePipeline.Proofs.Source
import DecodePipeline.Proofs.Text.Utf8

/-!
A list whose ids rise is settled by what it finds under each id. So the canonical order is a function of the
entries that are listed first, and what leaves those as they are leaves the order as it is: putting a list in
order twice, or putting it in order before more is listed behind it.
-/

namespace DecodePipeline

variable {sources sources' ordered ordered' : List SourceEntry}

/-- Both lists have the same ids, with the same entry listed first under each. -/
def SameFirsts (sources sources' : List SourceEntry) : Prop :=
  ∀ id, sources.find? (·.id = id) = sources'.find? (·.id = id)

theorem Rises.eq (rises : Rises ordered) (rises' : Rises ordered') (same : SameFirsts ordered ordered') :
    ordered = ordered' := by
  have irrefl : Std.Irrefl fun a b : SourceEntry => a.id < b.id := ⟨fun a => lt_irrefl a.id⟩
  refine List.Pairwise.eq_of_mem_iff rises rises' ?_
  intro s
  rw [rises.mem_iff, rises'.mem_iff, same s.id]

theorem SameFirsts.append_right (same : SameFirsts sources sources') (more : List SourceEntry) :
    SameFirsts (sources ++ more) (sources' ++ more) := by
  intro id
  rw [List.find?_append, List.find?_append, same id]

theorem sameFirsts_canonicalOrder (sources : List SourceEntry) :
    SameFirsts (canonicalOrder sources) sources :=
  find?_canonicalOrder sources

theorem canonicalOrder_eq (rises : Rises ordered) (same : SameFirsts ordered sources) :
    canonicalOrder sources = ordered := by
  refine Rises.eq (canonicalOrder_rises sources) rises ?_
  intro id
  rw [sameFirsts_canonicalOrder sources id, same id]

theorem canonicalOrder_eq_self (rises : Rises ordered) : canonicalOrder ordered = ordered :=
  canonicalOrder_eq rises fun _ => rfl

theorem canonicalOrder_congr (same : SameFirsts sources sources') :
    canonicalOrder sources = canonicalOrder sources' := by
  refine canonicalOrder_eq (canonicalOrder_rises sources') ?_
  intro id
  rw [sameFirsts_canonicalOrder sources' id, same id]

theorem canonicalOrder_bytes_rise (sources : List SourceEntry) :
    ((canonicalOrder sources).map fun s => Text.encodeUtf8 s.id).Pairwise (· < ·) := by
  refine List.pairwise_map.mpr ((canonicalOrder_rises sources).imp ?_)
  intro a b less
  exact Text.encodeUtf8_lt less

/-- The ids of the canonical order are those listed and rise by their bytes, and each has the entry that was
listed first. To order a second time changes nothing, nor does it to order what is listed before the rest. -/
theorem canonicalOrder_keeps_firsts (sources more : List SourceEntry) :
    ((canonicalOrder sources).map fun s => Text.encodeUtf8 s.id).Pairwise (· < ·) ∧
      (∀ id, id ∈ (canonicalOrder sources).map (·.id) ↔ id ∈ sources.map (·.id)) ∧
      (∀ s ∈ canonicalOrder sources, ∃ before after, sources = before ++ s :: after ∧
        ∀ t ∈ before, t.id ≠ s.id) ∧
      canonicalOrder (canonicalOrder sources) = canonicalOrder sources ∧
      canonicalOrder (sources ++ more) = canonicalOrder (canonicalOrder sources ++ more) := by
  refine ⟨canonicalOrder_bytes_rise sources, mem_ids_canonicalOrder sources, ?_, ?_, ?_⟩
  · intro s mem
    obtain ⟨_, before, after, eq, others⟩ :=
      List.find?_eq_some_iff_append.mp (first_of_mem_canonicalOrder mem)
    exact ⟨before, after, eq, fun t earlier => by simpa using others t earlier⟩
  · exact canonicalOrder_eq_self (canonicalOrder_rises sources)
  · exact (canonicalOrder_congr ((sameFirsts_canonicalOrder sources).append_right more)).symm

/-- A repeated id, and one that a single byte would order differently. -/
theorem canonicalOrder_keeps_firsts_repeated :
    let sources : List SourceEntry := [⟨"é", "/1"⟩, ⟨"z", "/2"⟩, ⟨"é", "/3"⟩]
    let ordered : List SourceEntry := [⟨"z", "/2"⟩, ⟨"é", "/1"⟩]
    canonicalOrder sources = ordered ∧ (ordered.map fun s => Text.encodeUtf8 s.id).Pairwise (· < ·) ∧
      (∃ before after, sources = before ++ ⟨"é", "/1"⟩ :: after ∧ ∀ t ∈ before, t.id ≠ "é") ∧
      canonicalOrder (sources ++ [⟨"z", "/4"⟩]) = canonicalOrder (ordered ++ [⟨"z", "/4"⟩]) := by
  intro sources ordered
  have eq : canonicalOrder sources = ordered := by
    refine canonicalOrder_eq (by unfold Rises; decide) ?_
    intro id
    by_cases first : "é" = id
    · subst first
      decide
    · simp only [sources, ordered, List.find?_cons, first, decide_false]
  obtain ⟨rise, _, firsts, _, append⟩ := canonicalOrder_keeps_firsts sources [⟨"z", "/4"⟩]
  rw [eq] at rise firsts append
  exact ⟨eq, rise, firsts ⟨"é", "/1"⟩ (by decide), append⟩

end DecodePipeline
