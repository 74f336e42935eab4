import DecodePipeline.Json.Record
import DecodePipeline.Proofs.Json.Text
import DecodePipeline.Proofs.Time

/-!
Work items and artifact sets as text. Each is read back from what is written for it; a text that
lists the members in another order, as an array, with more members or with a time elsewhere than in
UTC is read as something that is then written and read without change.
-/

namespace DecodePipeline

namespace Json

variable {limit n : Nat} {j : Json}

theorem natBelow?_ofNat (small : n < limit) : natBelow? limit (.ofNat n) = some n := by
  simp [natBelow?, ofNat, small]

theorem lt_of_natBelow? (read : natBelow? limit j = some n) : n < limit := by
  unfold natBelow? at read
  split at read
  · split at read
    · next small => exact Option.some.inj read ▸ small.2
    · simp at read
  · simp at read

theorem instant?_text (t : Instant) : instant? (.str t.text) = some t := by
  simp [instant?, text?, t.read?_text]

theorem all?_text?_map_str (xs : List String) : all? text? (xs.map str) = some xs := by
  induction xs with
  | nil => rfl
  | cons x xs ih => simp [all?, text?, ih]

end Json

theorem Status.ofName?_name (s : Status) : Status.ofName? s.name = some s := by
  cases s <;> decide

namespace WorkItem

theorem plain_toJson (item : WorkItem) : item.toJson.Plain := by
  refine .obj _ ?_
  cases item.lastError <;> simp [Json.Plain.str, Json.Plain.int, Json.ofNat]

theorem ofJson?_toJson {item : WorkItem} (small : item.attempt < Decimal.limit32) :
    ofJson? item.toJson = some item := by
  obtain ⟨id, source, status, attempt, lastError, time⟩ := item
  cases lastError <;>
    simp [ofJson?, toJson, members, Json.record?, Json.Members.get?, Json.text?, Json.choice?,
      Status.ofName?_name, Json.natBelow?_ofNat small, Json.instant?_text, Json.textOrNull?]

theorem attempt_lt_of_ofJson? {j : Json} {item : WorkItem} (read : ofJson? j = some item) :
    item.attempt < Decimal.limit32 := by
  simp only [ofJson?, bind, Option.bind_eq_some_iff] at read
  obtain ⟨members, _, read⟩ := read
  split at read
  · simp only [Option.bind_eq_some_iff] at read
    obtain ⟨_, _, _, _, _, _, _, attempt, _, _, _, _, eq⟩ := read
    cases eq
    exact Json.lt_of_natBelow? attempt
  · simp at read

end WorkItem

namespace ArtifactSet

theorem plain_toJson (set : ArtifactSet) : set.toJson.Plain := by
  have files : (Json.strings set.files).Plain := .arr _ (by simp [Json.Plain.str])
  refine .obj _ ?_
  simp [Json.Plain.str, Json.Plain.int, Json.ofNat, files]

theorem ofJson?_toJson {set : ArtifactSet} (small : set.attempts < Decimal.limit32) :
    ofJson? set.toJson = some set := by
  simp [ofJson?, toJson, members, Json.record?, Json.Members.get?, Json.text?,
    Json.natBelow?_ofNat small, Json.instant?_text, Json.strings, Json.items?,
    Json.all?_text?_map_str]

theorem attempts_lt_of_ofJson? {j : Json} {set : ArtifactSet} (read : ofJson? j = some set) :
    set.attempts < Decimal.limit32 := by
  simp only [ofJson?, bind, Option.bind_eq_some_iff] at read
  obtain ⟨members, _, read⟩ := read
  split at read
  · simp only [Option.bind_eq_some_iff] at read
    obtain ⟨_, _, _, _, _, _, _, attempts, eq⟩ := read
    cases eq
    exact Json.lt_of_natBelow? attempts
  · simp at read

end ArtifactSet

namespace Json

/-- What is read from a text is read from what is written for it, and so is written in one way. -/
structure Settled {α : Type} (write : α → Json) (ofJson? : Json → Option α) (a : α) : Prop where
  reads : (read? (write a).render).bind ofJson? = some a
  writes : ((read? (write a).render).bind ofJson?).map (fun b => (write b).render) =
    some (write a).render

theorem settled_of_ofJson? {α : Type} {write : α → Json} {ofJson? : Json → Option α} {a : α}
    (plain : (write a).Plain) (back : ofJson? (write a) = some a) : Settled write ofJson? a := by
  have reads : (read? (write a).render).bind ofJson? = some a := by
    rw [read?_render plain, Option.bind_some, back]
  exact ⟨reads, by rw [reads, Option.map_some]⟩

/-- Work items and artifact sets are read back from what is written for them, and so is whatever is
read from any text. -/
theorem read_back_from_text :
    (∀ item : WorkItem, item.attempt < Decimal.limit32 →
      Settled WorkItem.toJson WorkItem.ofJson? item) ∧
    (∀ set : ArtifactSet, set.attempts < Decimal.limit32 →
      Settled ArtifactSet.toJson ArtifactSet.ofJson? set) ∧
    (∀ text item, (read? text).bind WorkItem.ofJson? = some item →
      Settled WorkItem.toJson WorkItem.ofJson? item) ∧
    ∀ text set, (read? text).bind ArtifactSet.ofJson? = some set →
      Settled ArtifactSet.toJson ArtifactSet.ofJson? set := by
  have items (item : WorkItem) (small : item.attempt < Decimal.limit32) :
      Settled WorkItem.toJson WorkItem.ofJson? item :=
    settled_of_ofJson? item.plain_toJson (WorkItem.ofJson?_toJson small)
  have sets (set : ArtifactSet) (small : set.attempts < Decimal.limit32) :
      Settled ArtifactSet.toJson ArtifactSet.ofJson? set :=
    settled_of_ofJson? set.plain_toJson (ArtifactSet.ofJson?_toJson small)
  refine ⟨items, sets, fun text item read => ?_, fun text set read => ?_⟩
  · obtain ⟨j, _, read⟩ := Option.bind_eq_some_iff.mp read
    exact items item (WorkItem.attempt_lt_of_ofJson? read)
  · obtain ⟨j, _, read⟩ := Option.bind_eq_some_iff.mp read
    exact sets set (ArtifactSet.attempts_lt_of_ofJson? read)

/-- An item as an array, with a leap second elsewhere than in UTC and more digits than are kept. -/
def listedItem : String :=
  "[\"a\\u0022\", \"/s/\\u00e9.bin\", \"queued\", 4294967295, null, " ++
    "\"2016-12-31 23:59:60.1234567899-01:30\"]"

/-- A set with its members in another order and one more. -/
def extendedSet : String :=
  "\x7b\"attempts\":2,\"note\":[\x7b\x7d],\"produced_at\":\"-0004-02-29T00:30:00+0100\"," ++
    "\"files\":[\"\\\\\"],\"item_id\":\"\"\x7d"

theorem read_back_from_text_leap_second :
    (∃ item, (read? listedItem).bind WorkItem.ofJson? = some item ∧ item.id = "a\"" ∧
      item.discoveredAt.text = "2017-01-01T01:29:60.123456789Z" ∧
      item.attempt < Decimal.limit32 ∧ Settled WorkItem.toJson WorkItem.ofJson? item ∧
      Settled WorkItem.toJson WorkItem.ofJson? { item with lastError := some "\t\u0000" }) ∧
    ∃ set, (read? extendedSet).bind ArtifactSet.ofJson? = some set ∧
      set.producedAt.text = "-0004-02-28T23:30:00Z" ∧
      set.attempts < Decimal.limit32 ∧ Settled ArtifactSet.toJson ArtifactSet.ofJson? set ∧
      Settled ArtifactSet.toJson ArtifactSet.ofJson? { set with files := [] } := by
  have items : ((read? listedItem).bind WorkItem.ofJson?).any (fun item =>
      item.id = "a\"" ∧ item.discoveredAt.text = "2017-01-01T01:29:60.123456789Z" ∧
        item.attempt < Decimal.limit32) := by decide +kernel
  have sets : ((read? extendedSet).bind ArtifactSet.ofJson?).any (fun set =>
      set.producedAt.text = "-0004-02-28T23:30:00Z" ∧ set.attempts < Decimal.limit32) := by
    decide +kernel
  obtain ⟨item, readItem, holds⟩ := (Option.any_eq_true _ _).mp items
  obtain ⟨set, readSet, holds'⟩ := (Option.any_eq_true _ _).mp sets
  obtain ⟨id, time, attempt⟩ := of_decide_eq_true holds
  obtain ⟨time', attempts⟩ := of_decide_eq_true holds'
  obtain ⟨anyItem, anySet, fromText, fromText'⟩ := read_back_from_text
  exact ⟨⟨item, readItem, id, time, attempt, fromText _ item readItem, anyItem _ attempt⟩,
    ⟨set, readSet, time', attempts, fromText' _ set readSet, anySet _ attempts⟩⟩

end Json

end DecodePipeline
