import DecodePipeline.FileTree.Operation
import Mathlib.Data.List.Nodup

/-!
What every tree of files satisfies: each entry lies in a directory, under a name that the system allows,
and no two lie at one location.
-/

namespace DecodePipeline

/-- What can stand between slashes. -/
structure PlainName (name : String) : Prop where
  filled : name ≠ ""
  plain : '/' ∉ name.toList

/-- A name that is looked up as it stands and is not too long for that. -/
structure OrdinaryName (name : String) : Prop where
  notDot : name ≠ "."
  notDots : name ≠ ".."
  short : name.utf8ByteSize ≤ FileTree.nameLimit

/-- What the system allows as the name of an entry. -/
structure LegalName (name : String) : Prop extends PlainName name, OrdinaryName name

instance (name : String) : Decidable (LegalName name) :=
  decidable_of_iff (name ≠ "" ∧ '/' ∉ name.toList ∧ name ≠ "." ∧ name ≠ ".." ∧
      name.utf8ByteSize ≤ FileTree.nameLimit)
    ⟨fun ⟨filled, plain, notDot, notDots, short⟩ => ⟨⟨filled, plain⟩, notDot, notDots, short⟩,
      fun h => ⟨h.filled, h.plain, h.notDot, h.notDots, h.short⟩⟩

namespace FileTree

structure Sound (t : FileTree) : Prop where
  distinct : (t.entries.map (·.1)).Nodup
  legal : ∀ e ∈ t.entries, ∀ name ∈ e.1, LegalName name
  below : ∀ e ∈ t.entries, e.1 ≠ [] ∧ t.node? e.1.dropLast = some .directory

instance (t : FileTree) : Decidable t.Sound :=
  decidable_of_iff ((t.entries.map (·.1)).Nodup ∧ (∀ e ∈ t.entries, ∀ name ∈ e.1, LegalName name) ∧
      ∀ e ∈ t.entries, e.1 ≠ [] ∧ t.node? e.1.dropLast = some .directory)
    ⟨fun ⟨distinct, legal, below⟩ => ⟨distinct, legal, below⟩,
      fun h => ⟨h.distinct, h.legal, h.below⟩⟩

variable {t : FileTree} {l x : Location} {n : Node} {name : String}

/-! ## Nodes -/

@[simp]
theorem node?_root (t : FileTree) : t.node? [] = some .directory := rfl

theorem mem_of_node? (at_ : t.node? l = some n) (deep : l ≠ []) : (l, n) ∈ t.entries := by
  simp only [node?, deep, if_false, Option.map_eq_some_iff] at at_
  obtain ⟨e, found, rfl⟩ := at_
  obtain rfl : e.1 = l := by simpa using List.find?_some found
  exact List.mem_of_find?_eq_some found

theorem Sound.node?_of_mem (sound : t.Sound) (mem : (l, n) ∈ t.entries) : t.node? l = some n := by
  have deep : l ≠ [] := (sound.below _ mem).1
  have found : ∃ e, t.entries.find? (·.1 = l) = some e :=
    Option.isSome_iff_exists.mp (List.find?_isSome.mpr ⟨_, mem, decide_eq_true rfl⟩)
  obtain ⟨e, found⟩ := found
  have same : e.1 = l := by simpa using List.find?_some found
  have all := List.inj_on_of_nodup_map sound.distinct (List.mem_of_find?_eq_some found) mem same
  simp [node?, deep, found, all]

theorem Sound.above (sound : t.Sound) (at_ : t.node? (l ++ [name]) = some n) :
    t.node? l = some .directory := by
  have mem := mem_of_node? at_ (by simp)
  simpa using (sound.below _ mem).2

theorem Sound.legal_of_node? (sound : t.Sound) (at_ : t.node? l = some n) (mem : name ∈ l) :
    LegalName name :=
  sound.legal _ (mem_of_node? at_ (List.ne_nil_of_mem mem)) name mem

theorem Sound.legal_of_entry (sound : t.Sound) (at_ : t.node? (l ++ [name]) = some n) :
    LegalName name :=
  sound.legal_of_node? at_ (by simp)

theorem Sound.dropLast (sound : t.Sound) (at_ : t.node? l = some n) :
    t.node? l.dropLast = some .directory := by
  obtain rfl | ⟨l, name, rfl⟩ := l.eq_nil_or_concat
  · rfl
  · simpa using sound.above (by simpa using at_)

/-! ## Changes -/

theorem node?_erase (t : FileTree) (deep : l ≠ []) (x : Location) :
    (t.erase l).node? x = if x = l then none else t.node? x := by
  simp only [node?, erase, List.find?_filter]
  split_ifs with root same same
  · exact absurd (same ▸ root) deep
  · rfl
  · simp [same]
  · congr 2
    funext e
    by_cases at_ : e.1 = x <;> simp [at_, same]

theorem node?_put (t : FileTree) (deep : l ≠ []) (n : Node) (x : Location) :
    (t.put l n).node? x = if x = l then some n else t.node? x := by
  by_cases root : x = []
  · subst root
    simp [Ne.symm deep]
  simp only [node?, put, root, if_false]
  split_ifs with there same same
  · -- The entry that is replaced keeps its location.
    have keeps : ∀ e : Location × Node, (if e.1 = l then (l, n) else e).1 = e.1 := by
      intro e
      split <;> simp_all
    obtain ⟨e, found⟩ : ∃ e, t.entries.find? (·.1 = l) = some e :=
      Option.isSome_iff_exists.mp (List.find?_isSome.mpr (List.any_eq_true.mp there))
    have at_ : e.1 = l := by simpa using List.find?_some found
    simp only [List.find?_map, Function.comp_def, keeps, same, found]
    simp [at_]
  · have keeps : ∀ e : Location × Node, (if e.1 = l then (l, n) else e).1 = e.1 := by
      intro e
      split <;> simp_all
    simp only [List.find?_map, Function.comp_def, keeps]
    cases found : t.entries.find? (·.1 = x) with
    | none => rfl
    | some e =>
        have at_ : e.1 = x := by simpa using List.find?_some found
        simp [at_, same]
  · have absent : t.entries.find? (·.1 = l) = none := by
      simpa only [List.any_eq_true, not_exists, not_and, List.find?_eq_none] using there
    simp [List.find?_append, same, absent]
  · simp [List.find?_append, Ne.symm same]

/-- What is no directory has nothing below it and may be taken away. -/
theorem Sound.erase (sound : t.Sound) (at_ : t.node? l = some n) (leaf : n ≠ .directory) :
    (t.erase l).Sound where
  distinct := sound.distinct.sublist (List.filter_sublist.map _)
  legal e mem := sound.legal e (List.mem_filter.mp mem).1
  below e mem := by
    obtain ⟨deep, above⟩ := sound.below e (List.mem_filter.mp mem).1
    have inner : l ≠ [] := by
      rintro rfl
      exact leaf (Option.some.inj at_).symm
    refine ⟨deep, ?_⟩
    rw [node?_erase t inner]
    split_ifs with same
    · rw [same, at_] at above
      exact absurd (Option.some.inj above) leaf
    · exact above

/-- A legal name that is free in a directory may be taken. -/
theorem Sound.put (sound : t.Sound) (free : t.node? (l ++ [name]) = none)
    (above : t.node? l = some .directory) (legal : LegalName name) (n : Node) :
    (t.put (l ++ [name]) n).Sound := by
  have new : ∀ e ∈ t.entries, e.1 ≠ l ++ [name] := by
    intro e mem same
    have at_ := sound.node?_of_mem (l := e.1) (n := e.2) mem
    rw [same, free] at at_
    contradiction
  have entries : (t.put (l ++ [name]) n).entries = t.entries ++ [(l ++ [name], n)] := by
    have absent : t.entries.any (·.1 = l ++ [name]) = false := by simpa using new
    simp [FileTree.put, absent]
  have keeps {x : Location} {m : Node} (at_ : t.node? x = some m) :
      (t.put (l ++ [name]) n).node? x = some m := by
    rw [node?_put t (by simp)]
    split_ifs with same
    · rw [same, free] at at_
      contradiction
    · exact at_
  constructor
  · rw [entries, List.map_append]
    refine List.nodup_append.mpr ⟨sound.distinct, List.nodup_singleton _, ?_⟩
    simpa using new
  · intro e mem x inner
    obtain mem | rfl := by simpa [entries] using mem
    · exact sound.legal e mem x inner
    · obtain inner | rfl := by simpa using inner
      · exact sound.legal_of_node? above inner
      · exact legal
  · intro e mem
    obtain mem | rfl := by simpa [entries] using mem
    · obtain ⟨deep, below⟩ := sound.below e mem
      exact ⟨deep, keeps below⟩
    · exact ⟨by simp, by simpa using keeps above⟩

/-! ## Listing -/

theorem childName?_eq_some {e : Location × Node} {c : String × Node} :
    childName? l e = some c ↔ e = (l ++ [c.1], c.2) := by
  constructor
  · intro own
    simp only [childName?] at own
    split at own
    · split_ifs at own with at_
      cases own
      exact Prod.ext at_ rfl
    · contradiction
  · rintro rfl
    simp [childName?]

theorem mem_children : (name, n) ∈ t.children l ↔ (l ++ [name], n) ∈ t.entries := by
  simp [children, List.mem_filterMap, childName?_eq_some]

theorem Sound.mem_children_iff (sound : t.Sound) :
    (name, n) ∈ t.children l ↔ t.node? (l ++ [name]) = some n := by
  rw [mem_children]
  exact ⟨sound.node?_of_mem, fun at_ => mem_of_node? at_ (by simp)⟩

theorem Sound.children_nodup (sound : t.Sound) (l : Location) :
    ((t.children l).map (·.1)).Nodup := by
  refine List.Nodup.of_map (fun name => l ++ [name]) (sound.distinct.sublist ?_)
  simp only [children, List.map_map]
  induction t.entries with
  | nil => exact .slnil
  | cons e rest ih =>
      cases own : childName? l e with
      | none => simpa [List.filterMap_cons, own] using ih.cons _
      | some c =>
          obtain rfl := childName?_eq_some.mp own
          simpa [List.filterMap_cons, own] using ih.cons_cons (l ++ [c.1])

theorem list_eq_ok {cwd : Location} {path : String} {listing : List (String × Node)} :
    t.list cwd path = .ok listing ↔ ∃ l, t.directory cwd path = .ok l ∧ t.children l = listing := by
  simp only [list]
  cases t.directory cwd path <;> simp [bind, Except.bind, pure, Except.pure]

theorem Sound.legal_of_list (sound : t.Sound) {cwd : Location} {path : String}
    {listing : List (String × Node)} (listed : t.list cwd path = .ok listing) {e : String × Node}
    (mem : e ∈ listing) : LegalName e.1 := by
  obtain ⟨l, _, rfl⟩ := list_eq_ok.mp listed
  exact sound.legal _ (mem_children.mp mem) e.1 (by simp)

end FileTree

end DecodePipeline
