import DecodePipeline.Source
import Mathlib.Data.List.Sort
import Mathlib.Data.String.Basic

/-!
The canonical order of sources: the ids rise strictly, they are the ids that were listed, and
each comes with the entry that was listed first.
-/

namespace DecodePipeline

theorem withoutRepeats_sublist (a : SourceEntry) (l : List SourceEntry) :
    (withoutRepeats a l).Sublist (a :: l) := by
  induction l generalizing a with
  | nil => exact .refl _
  | cons b rest ih =>
      simp only [withoutRepeats]
      split
      · exact (ih a).trans ((List.sublist_cons_self b rest).cons_cons a)
      · exact (ih b).cons_cons a

/-- No id comes twice when entries that share an id stand together. -/
theorem withoutRepeats_rises (a : SourceEntry) (l : List SourceEntry)
    (sorted : (a :: l).Pairwise fun x y => x.id ≤ y.id) :
    (withoutRepeats a l).Pairwise fun x y => x.id < y.id := by
  induction l generalizing a with
  | nil => exact List.pairwise_singleton _ _
  | cons b rest ih =>
      obtain ⟨first, later⟩ := List.pairwise_cons.mp sorted
      simp only [withoutRepeats]
      split
      · refine ih a (List.pairwise_cons.mpr ⟨fun x mem => ?_, (List.pairwise_cons.mp later).2⟩)
        exact first x (List.mem_cons_of_mem b mem)
      · next differ =>
          refine List.pairwise_cons.mpr ⟨fun x mem => ?_, ih b later⟩
          have below : a.id < b.id := lt_of_le_of_ne (first b List.mem_cons_self) differ
          obtain rfl | behind := List.mem_cons.mp ((withoutRepeats_sublist b rest).subset mem)
          · exact below
          · exact lt_of_lt_of_le below ((List.pairwise_cons.mp later).1 x behind)

theorem mem_ids_withoutRepeats (a : SourceEntry) (l : List SourceEntry) (p : String) :
    p ∈ (withoutRepeats a l).map (·.id) ↔ p ∈ (a :: l).map (·.id) := by
  induction l generalizing a with
  | nil => rfl
  | cons b rest ih =>
      simp only [withoutRepeats]
      split
      · next same => simp [ih a, ← same]
      · simp only [List.map_cons, List.mem_cons, ih b]

theorem find?_withoutRepeats (a : SourceEntry) (l : List SourceEntry) (p : String) :
    (withoutRepeats a l).find? (·.id = p) = (a :: l).find? (·.id = p) := by
  induction l generalizing a with
  | nil => rfl
  | cons b rest ih =>
      simp only [withoutRepeats]
      split
      · next same =>
          rw [ih a]
          simp only [List.find?_cons, ← same]
          split <;> rfl
      · simp only [List.find?_cons] at ih ⊢
        rw [ih b]

theorem id_le_trans (a b c : SourceEntry) (ab : decide (a.id ≤ b.id) = true)
    (bc : decide (b.id ≤ c.id) = true) : decide (a.id ≤ c.id) = true := by
  simp only [decide_eq_true_eq] at ab bc ⊢
  exact le_trans ab bc

theorem id_le_total (a b : SourceEntry) :
    (decide (a.id ≤ b.id) || decide (b.id ≤ a.id)) = true := by
  simp only [Bool.or_eq_true, decide_eq_true_eq]
  exact le_total a.id b.id

theorem canonicalOrder_rises (sources : List SourceEntry) :
    (canonicalOrder sources).Pairwise fun x y => x.id < y.id := by
  have sorted := List.pairwise_mergeSort id_le_trans id_le_total sources
  simp only [decide_eq_true_eq] at sorted
  simp only [canonicalOrder, dropRepeats]
  split
  · exact .nil
  · next a rest eq => exact withoutRepeats_rises a rest (eq ▸ sorted)

theorem canonicalOrder_ids_rise (sources : List SourceEntry) :
    ((canonicalOrder sources).map (·.id)).Pairwise (· < ·) :=
  List.pairwise_map.mpr (canonicalOrder_rises sources)

theorem canonicalOrder_ids_nodup (sources : List SourceEntry) :
    ((canonicalOrder sources).map (·.id)).Nodup :=
  (canonicalOrder_ids_rise sources).imp ne_of_lt

theorem mem_ids_canonicalOrder (sources : List SourceEntry) (p : String) :
    p ∈ (canonicalOrder sources).map (·.id) ↔ p ∈ sources.map (·.id) := by
  have perm := (List.mergeSort_perm sources fun a b => decide (a.id ≤ b.id)).map (·.id)
  rw [← perm.mem_iff]
  simp only [canonicalOrder, dropRepeats]
  split
  · next eq => rw [eq]
  · next a rest eq => rw [eq]; exact mem_ids_withoutRepeats a rest p

/-- Sorting by id keeps the order of the entries that share one. -/
theorem filter_mergeSort (sources : List SourceEntry) (p : String) :
    (sources.mergeSort fun a b => decide (a.id ≤ b.id)).filter (·.id = p) =
      sources.filter (·.id = p) := by
  have alike : (sources.filter (·.id = p)).Pairwise fun a b => decide (a.id ≤ b.id) = true := by
    refine List.pairwise_of_forall_mem_list fun a mem b mem' => ?_
    have of_p : a.id = p := of_decide_eq_true (List.mem_filter.mp mem).2
    have of_p' : b.id = p := of_decide_eq_true (List.mem_filter.mp mem').2
    exact decide_eq_true (le_of_eq (of_p.trans of_p'.symm))
  have among := List.sublist_mergeSort id_le_trans id_le_total alike List.filter_sublist
  have kept := among.filter (·.id = p)
  simp only [List.filter_filter, Bool.and_self] at kept
  refine (kept.eq_of_length ?_).symm
  exact ((List.mergeSort_perm sources _).symm.filter _).length_eq

theorem find?_canonicalOrder (sources : List SourceEntry) (p : String) :
    (canonicalOrder sources).find? (·.id = p) = sources.find? (·.id = p) := by
  rw [← List.head?_filter (l := sources), ← filter_mergeSort, List.head?_filter]
  simp only [canonicalOrder, dropRepeats]
  split
  · next eq => rw [eq]
  · next a rest eq => rw [eq, find?_withoutRepeats]

/-- Each id comes after all that are listed before it, and so comes once. -/
def Rises (sources : List SourceEntry) : Prop :=
  sources.Pairwise fun a b => a.id < b.id

theorem Rises.mem_iff {sources : List SourceEntry} {s : SourceEntry} (rises : Rises sources) :
    s ∈ sources ↔ sources.find? (·.id = s.id) = some s := by
  constructor
  · intro mem
    obtain ⟨before, after, eq⟩ := List.append_of_mem mem
    refine List.find?_eq_some_iff_append.mpr ⟨decide_eq_true rfl, before, after, eq, ?_⟩
    intro t earlier
    rw [Rises, eq] at rises
    have below : t.id < s.id := (List.pairwise_append.mp rises).2.2 t earlier s List.mem_cons_self
    simpa using ne_of_lt below
  · exact List.mem_of_find?_eq_some

theorem first_of_mem_canonicalOrder {sources : List SourceEntry} {s : SourceEntry}
    (mem : s ∈ canonicalOrder sources) : sources.find? (·.id = s.id) = some s := by
  have rises : Rises (canonicalOrder sources) := canonicalOrder_rises sources
  rw [← find?_canonicalOrder]
  exact rises.mem_iff.mp mem

end DecodePipeline
