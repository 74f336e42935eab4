import DecodePipeline.Frame
import DecodePipeline.Proofs.Decimal
import DecodePipeline.Proofs.Path

/-!
Which names are read as names of frames: the item's id, the separator, a numeral and the suffix, and the
numeral's value is the index. The name that is built for an index is read as that index, and no name is
read for two items.
-/

namespace DecodePipeline.Frame

variable {cs front back rest : List Char} {id path : String} {index : Nat}

theorem after?_eq_some_iff : after? front cs = some rest ↔ cs = front ++ rest := by
  simp only [after?]
  split
  · next begins =>
      obtain ⟨tail, rfl⟩ := List.isPrefixOf_iff_prefix.mp begins
      simp
  · next other =>
      refine iff_of_false (by simp) ?_
      rintro rfl
      exact other (List.isPrefixOf_iff_prefix.mpr (List.prefix_append front rest))

theorem before?_eq_some_iff : before? back cs = some rest ↔ cs = rest ++ back := by
  simp only [before?, Option.map_eq_some_iff, after?_eq_some_iff]
  constructor
  · rintro ⟨_, eq, rfl⟩
    rw [← List.reverse_reverse cs, eq]
    simp
  · rintro rfl
    exact ⟨rest.reverse, by simp, by simp⟩

/-- The numerals that a frame's name may hold: at least four digits, with a value of 32 bits. -/
structure Numeral (ds : List Char) : Prop where
  long : 4 ≤ ds.length
  digits : ∀ c ∈ ds, Decimal.isDigit c
  fits : Decimal.value ds < Decimal.limit32

/-- The name of a frame whose index is spelled in a way of its own. -/
def spelled (id : String) (ds : List Char) : String :=
  id ++ "_dec_" ++ String.ofList ds ++ ".ply"

theorem toList_spelled (id : String) (ds : List Char) :
    (spelled id ds).toList = id.toList ++ separator ++ (ds ++ suffix) := by
  simp [spelled, separator, suffix]

/-- A name is read as a frame of an item exactly if it is spelled as one. -/
theorem indexOfName?_eq_some_iff {name : String} :
    indexOfName? id name.toList = some index ↔
      ∃ ds, Numeral ds ∧ name = spelled id ds ∧ Decimal.value ds = index := by
  have same (ds : List Char) :
      name.toList = id.toList ++ separator ++ (ds ++ suffix) ↔ name = spelled id ds := by
    rw [← toList_spelled, String.toList_inj]
  simp only [indexOfName?, bind, Option.bind_eq_some_iff, after?_eq_some_iff, before?_eq_some_iff]
  constructor
  · rintro ⟨_, eq, ds, rfl, read⟩
    split at read
    · simp at read
    · next long =>
        simp only [Option.bind_eq_some_iff, Decimal.read?_eq_some_iff] at read
        obtain ⟨n, ⟨_, digits, rfl⟩, fits⟩ := read
        split at fits
        · next small =>
            exact ⟨ds, ⟨Nat.le_of_not_lt long, digits, small⟩, (same ds).mp eq, Option.some.inj fits⟩
        · simp at fits
  · rintro ⟨ds, numeral, eq, rfl⟩
    refine ⟨ds ++ suffix, (same ds).mpr eq, ds, rfl, ?_⟩
    rw [if_neg (Nat.not_lt.mpr numeral.long)]
    simp only [Option.bind_eq_some_iff, Decimal.read?_eq_some_iff]
    refine ⟨_, ⟨?_, numeral.digits, rfl⟩, if_pos numeral.fits⟩
    rintro rfl
    exact absurd numeral.long (by decide)

theorem index?_eq_some_iff :
    index? id path = some index ↔
      ∃ ds, Numeral ds ∧ Path.fileName? path = some (spelled id ds) ∧ Decimal.value ds = index := by
  simp only [index?, Option.bind_eq_some_iff, indexOfName?_eq_some_iff]
  constructor
  · rintro ⟨_, name, ds, numeral, rfl, value⟩
    exact ⟨ds, numeral, name, value⟩
  · rintro ⟨ds, numeral, name, value⟩
    exact ⟨_, name, ds, numeral, rfl, value⟩

/-! ## Names that are built -/

theorem numeral_padded (small : index < Decimal.limit32) : Numeral (Decimal.padded 4 index) where
  long := Decimal.le_length_padded 4 index
  digits _ := Decimal.isDigit_of_mem_padded
  fits := by rwa [Decimal.value_padded]

theorem name_eq_spelled (id : String) (index : Nat) :
    name id index = spelled id (Decimal.padded 4 index) := by
  refine String.toList_injective ?_
  simp [name, toList_spelled]

/-- No digit is a slash, so that a slash can only come from the id. -/
theorem slash_notMem_spelled {ds : List Char} (plain : '/' ∉ id.toList)
    (digits : ∀ c ∈ ds, Decimal.isDigit c) : '/' ∉ (spelled id ds).toList := by
  have outside : '/' ∉ ds := fun mem => absurd (digits _ mem) (by decide)
  simp [toList_spelled, plain, outside, separator, suffix]

/-- A frame's name ends in more than dots. -/
theorem spelled_ne {ds : List Char} {other : String} (short : other.utf8ByteSize < 4) :
    spelled id ds ≠ other := by
  rintro rfl
  simp only [spelled, String.utf8ByteSize_append] at short
  have four : ".ply".utf8ByteSize = 4 := by decide
  omega

theorem fileName?_join_spelled {ds : List Char} (plain : '/' ∉ id.toList) (numeral : Numeral ds)
    (dir : String) : Path.fileName? (Path.join dir (spelled id ds)) = some (spelled id ds) :=
  Path.fileName?_join (spelled_ne (by decide)) (slash_notMem_spelled plain numeral.digits)
    (spelled_ne (by decide)) (spelled_ne (by decide))

/-- The name of a frame is read as its index, wherever the frame lies. -/
theorem index?_join_name (plain : '/' ∉ id.toList) (small : index < Decimal.limit32) (dir : String) :
    index? id (Path.join dir (name id index)) = some index := by
  have numeral := numeral_padded small
  rw [name_eq_spelled, index?_eq_some_iff]
  exact ⟨_, numeral, fileName?_join_spelled plain numeral dir, Decimal.value_padded 4 index⟩

/-! ## Names of different items -/

/-- The numeral is all the digits before the suffix, so that what is before it is the id, whatever the id
looks like. -/
theorem spelled_inj {id' : String} {ds ds' : List Char} (numeral : Numeral ds)
    (numeral' : Numeral ds') (same : spelled id ds = spelled id' ds') : id = id' ∧ ds = ds' := by
  have lists := congrArg String.toList same
  rw [toList_spelled, toList_spelled, ← List.append_assoc, ← List.append_assoc] at lists
  have stops (id : String) : Decimal.Stops (id.toList ++ separator).reverse := by
    rw [List.reverse_append]
    exact Decimal.stops_cons rfl
  obtain ⟨fronts, digits⟩ := Decimal.append_inj_of_stops numeral.digits numeral'.digits (stops id)
    (stops id') (List.append_cancel_right lists)
  exact ⟨String.toList_injective (List.append_cancel_right fronts), digits⟩

/-- The frame name of every index is read back, what is read are exactly the names that spell an index
behind the item's id, and no path is read as a frame of two items. -/
theorem reads_exactly_spelled_names :
    (∀ id dir index, '/' ∉ id.toList → index < Decimal.limit32 →
      index? id (Path.join dir (name id index)) = some index) ∧
    (∀ id path index, index? id path = some index ↔
      ∃ ds, Numeral ds ∧ Path.fileName? path = some (id ++ "_dec_" ++ String.ofList ds ++ ".ply") ∧
        Decimal.value ds = index) ∧
    ∀ id id' path, (index? id path).isSome → (index? id' path).isSome → id = id' := by
  refine ⟨fun id dir index plain small => index?_join_name plain small dir,
    fun id path index => index?_eq_some_iff, fun id id' path own own' => ?_⟩
  obtain ⟨index, own⟩ := Option.isSome_iff_exists.mp own
  obtain ⟨index', own'⟩ := Option.isSome_iff_exists.mp own'
  obtain ⟨ds, numeral, named, _⟩ := index?_eq_some_iff.mp own
  obtain ⟨ds', numeral', named', _⟩ := index?_eq_some_iff.mp own'
  exact (spelled_inj numeral numeral' (Option.some.inj (named.symm.trans named'))).1

/-- One id begins another and holds the separator itself; a path is read for the longer one only. -/
theorem reads_exactly_spelled_names_nested :
    let path := Path.join "/out/a" (name "a_dec_0001" 12345)
    index? "a_dec_0001" path = some 12345 ∧ index? "a" path = none := by
  intro path
  obtain ⟨back, _, alone⟩ := reads_exactly_spelled_names
  have read : index? "a_dec_0001" path = some 12345 := back _ _ _ (by decide) (by decide)
  refine ⟨read, Option.eq_none_iff_forall_ne_some.mpr fun index own => ?_⟩
  exact absurd (alone "a_dec_0001" "a" path (by simp [read]) (by simp [own])) (by decide)

end DecodePipeline.Frame
