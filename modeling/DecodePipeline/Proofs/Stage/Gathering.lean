import DecodePipeline.Proofs.Stage.Discovery

/-!
What the answers of a catalog come to: each listing adds its new ids in byte order, each with its
first entry, until the limit is reached, and a scan that fails adds nothing. What discovery has
published is at any time the beginning of that, and all of it when a scan is over.
-/

namespace DecodePipeline

/-- What a listing adds to ids that are there already. -/
structure Adds (before : List String) (sources new : List SourceEntry) : Prop where
  rises : new.Pairwise fun x y => x.id < y.id
  ids : ∀ p, p ∈ new.map (·.id) ↔ p ∈ sources.map (·.id) ∧ p ∉ before
  first : ∀ s ∈ new, sources.find? (·.id = s.id) = some s

def capped (limit : Option Nat) (entries : List SourceEntry) : List SourceEntry :=
  entries.take (limit.getD entries.length)

/-- The entries that answers of the catalog come to, one answer after another. -/
inductive Gathers (limit : Option Nat) :
    List (Reply (List String) (List SourceEntry)) → List SourceEntry → Prop where
  | nothing : Gathers limit [] []
  | listing {answers : List (Reply (List String) (List SourceEntry))}
      {entries new sources : List SourceEntry} : Gathers limit answers entries →
      Adds (entries.map (·.id)) sources new →
      Gathers limit (answers ++ [.gives sources]) (capped limit (entries ++ new))
  | failure {answers : List (Reply (List String) (List SourceEntry))} {entries : List SourceEntry}
      {reply : Reply (List String) (List SourceEntry)} : Gathers limit answers entries →
      (∀ sources, reply ≠ .gives sources) → Gathers limit (answers ++ [reply]) entries

/-- The first answers of the catalog. -/
def World.answers (w : World) (n : Nat) : List (Reply (List String) (List SourceEntry)) :=
  (List.range n).map fun i => (w.catalog i).reply

theorem World.answers_succ (w : World) (n : Nat) :
    w.answers (n + 1) = w.answers n ++ [(w.catalog n).reply] := by
  simp [answers, List.range_succ]

section

variable {limit : Option Nat} {entries entries' new new' sources : List SourceEntry}
  {answers : List (Reply (List String) (List SourceEntry))} {before : List String}

theorem isPrefix_capped (limit : Option Nat) (entries : List SourceEntry) :
    capped limit entries <+: entries :=
  List.take_prefix _ _

theorem capped_of_within (within : ∀ m, limit = some m → entries.length ≤ m) :
    capped limit entries = entries := by
  apply List.take_of_length_le
  cases limit with
  | none => exact Nat.le_refl _
  | some m => exact within m rfl

theorem capped_append_of_full {m : Nat} (most : limit = some m) (full : entries.length = m)
    (new : List SourceEntry) : capped limit (entries ++ new) = entries := by
  subst most full
  simp [capped]

theorem prefix_capped_append (within : ∀ m, limit = some m → entries.length ≤ m)
    (new : List SourceEntry) : entries <+: capped limit (entries ++ new) := by
  refine List.prefix_take_iff.mpr ⟨List.prefix_append _ _, ?_⟩
  cases limit with
  | none => simp
  | some m => exact within m rfl

theorem Adds.unique (adds : Adds before sources new) (adds' : Adds before sources new') :
    new = new' := by
  have same : new.map (·.id) = new'.map (·.id) := by
    refine List.Pairwise.eq_of_mem_iff (List.pairwise_map.mpr adds.rises)
      (List.pairwise_map.mpr adds'.rises) fun p => ?_
    rw [adds.ids, adds'.ids]
  have found {l : List SourceEntry} (adds : Adds before sources l) :
      l.map some = (l.map (·.id)).map fun p => sources.find? (·.id = p) := by
    rw [List.map_map]
    exact List.map_congr_left fun s mem => (adds.first s mem).symm
  have both := (found adds).trans ((congrArg _ same).trans (found adds').symm)
  exact List.map_injective_iff.mpr (Option.some_injective _) both

/-- The entries in canonical order that are not published are what a listing adds. -/
theorem Discovery.adds_fresh (d : Discovery) (sources : List SourceEntry) :
    Adds d.published sources (d.fresh sources) where
  rises := (canonicalOrder_rises sources).sublist List.filter_sublist
  ids p := by
    rw [← mem_ids_canonicalOrder sources]
    simp only [fresh, List.mem_map, List.mem_filter, Bool.not_eq_true', List.contains_eq_mem,
      decide_eq_false_iff_not]
    constructor
    · rintro ⟨s, ⟨listed, unpublished⟩, rfl⟩
      exact ⟨⟨s, listed, rfl⟩, unpublished⟩
    · rintro ⟨⟨s, listed, rfl⟩, unpublished⟩
      exact ⟨s, ⟨listed, unpublished⟩, rfl⟩
  first _ mem := first_of_mem_canonicalOrder (List.mem_filter.mp mem).1

theorem Gathers.eq_nil (gathers : Gathers limit [] entries) : entries = [] := by
  generalize none : [] = answers at gathers
  cases gathers with
  | nothing => rfl
  | listing | failure => simp at none

/-- Answers come to one list of entries. -/
theorem Gathers.unique (gathers : Gathers limit answers entries)
    (gathers' : Gathers limit answers entries') : entries = entries' := by
  induction gathers generalizing entries' with
  | nothing => exact gathers'.eq_nil.symm
  | @listing answers entries new sources _ adds ih =>
      generalize all : answers ++ [.gives sources] = answers' at gathers'
      cases gathers' with
      | nothing => simp at all
      | listing before adds' =>
          obtain ⟨rfl, last⟩ := List.append_inj' all rfl
          obtain rfl := Reply.gives.inj (List.singleton_inj.mp last)
          obtain rfl := ih before
          rw [adds.unique adds']
      | failure before failed =>
          obtain ⟨rfl, last⟩ := List.append_inj' all rfl
          exact absurd (List.singleton_inj.mp last).symm (failed sources)
  | @failure answers entries reply _ failed ih =>
      generalize all : answers ++ [reply] = answers' at gathers'
      cases gathers' with
      | nothing => simp at all
      | @listing _ _ _ sources before =>
          obtain ⟨rfl, last⟩ := List.append_inj' all rfl
          exact absurd (List.singleton_inj.mp last) (failed sources)
      | failure before =>
          obtain ⟨rfl, _⟩ := List.append_inj' all rfl
          exact ih before

theorem Gathers.nodup (gathers : Gathers limit answers entries) : (entries.map (·.id)).Nodup := by
  induction gathers with
  | nothing => exact List.nodup_nil
  | listing _ adds ih =>
      refine List.Nodup.sublist ((isPrefix_capped _ _).sublist.map _) ?_
      rw [List.map_append]
      refine List.nodup_append.mpr ⟨ih, (List.pairwise_map.mpr adds.rises).imp ne_of_lt, ?_⟩
      rintro p old q added rfl
      exact ((adds.ids p).mp added).2 old
  | failure _ _ ih => exact ih

/-- What a single answer comes to. -/
theorem Gathers.of_one {w : World} (gathers : Gathers limit (w.answers 1) entries) :
    (∃ sources new, (w.catalog 0).reply = .gives sources ∧ Adds [] sources new ∧
        entries = capped limit new) ∨
      entries = [] ∧ ∀ sources, (w.catalog 0).reply ≠ .gives sources := by
  rw [w.answers_succ] at gathers
  generalize all : w.answers 0 ++ [(w.catalog 0).reply] = answers at gathers
  cases gathers with
  | nothing => simp at all
  | @listing _ _ new sources before adds =>
      obtain ⟨rfl, last⟩ := List.append_inj' all rfl
      obtain rfl := before.eq_nil
      exact .inl ⟨sources, new, List.singleton_inj.mp last, adds, rfl⟩
  | failure before failed =>
      obtain ⟨rfl, last⟩ := List.append_inj' all rfl
      exact .inr ⟨before.eq_nil, List.singleton_inj.mp last ▸ failed⟩

/-- The ids of a single listing rise. -/
theorem Gathers.rises {w : World} {n : Nat} (gathers : Gathers limit (w.answers n) entries)
    (once : n ≤ 1) : (entries.map (·.id)).Pairwise (· < ·) := by
  obtain rfl | rfl := Nat.le_one_iff_eq_zero_or_eq_one.mp once
  · rw [gathers.eq_nil]
    exact .nil
  · obtain ⟨sources, new, _, adds, rfl⟩ | ⟨rfl, _⟩ := gathers.of_one
    · exact (List.pairwise_map.mpr adds.rises).sublist ((isPrefix_capped _ _).sublist.map _)
    · exact .nil

end

namespace Discovery

/-- A scan comes after `n` others. It is the first, or discovery polls and is below its limit. -/
def Due (d : Discovery) (n : Nat) : Prop :=
  d.scanned = false ∧ n = 0 ∨ d.scanned ∧ 0 < n ∧ d.mode ≠ .batch ∧ d.limitReached = false

/-- The last scan of those that were made brought a listing. -/
def Listed (w : World) (hub : Hub) : Prop :=
  ∃ n sources, hub.scans.length = n + 1 ∧ (w.catalog n).reply = .gives sources

/-- How discovery can end when it has published some of the entries that there are. -/
inductive Ends (w : World) (hub : Hub) (mode : DiscoveryMode) (entries full : List SourceEntry) :
    Ending Nat → Prop where
  | returned : entries = full → (mode = .batch → Listed w hub) →
      Ends w hub mode entries full (.returned entries.length)
  | cancelled : hub.cancelled → Ends w hub mode entries full (.faulted .cancelled)
  | refused : Ends w hub mode entries full (.faulted .queueClosed)
  | failed (messages : List String) : hub.scans.length = 1 → full = [] →
      (w.catalog 0).reply = .fails messages →
      Ends w hub mode entries full (.faulted (.discovery (Failure.chain messages)))
  | panicked (n : Nat) : entries = full → hub.scans.length = n + 1 → (w.catalog n).reply = .panics →
      Ends w hub mode entries full .panicked
  | aborted : Ends w hub mode entries full .aborted

/-- The number of scans whose answers have come. -/
def heard (hub : Hub) (d : Discovery) : Nat :=
  match d.point with
  | .listing _ _ => hub.scans.length - 1
  | .scanning | .publishing _ | .resting _ | .ended _ => hub.scans.length

/-- What the answers come to with what is published, by the point that discovery has come to. -/
def Stands (w : World) (hub : Hub) (d : Discovery) (entries : List SourceEntry) : Prop :=
  let n := hub.scans.length
  match d.point with
  | .scanning => d.Due n ∧ Gathers d.maxItems (w.answers n) entries
  | .listing _ reply =>
    ∃ m, n = m + 1 ∧ reply = (w.catalog m).reply ∧ d.Due m ∧
      Gathers d.maxItems (w.answers m) entries
  | .publishing rest =>
    Listed w hub ∧ Gathers d.maxItems (w.answers n) (capped d.maxItems (entries ++ rest))
  | .resting _ => d.scanned ∧ d.Due n ∧ Gathers d.maxItems (w.answers n) entries
  | .ended ending =>
    ∃ full, Gathers d.maxItems (w.answers n) full ∧ entries <+: full ∧
      Ends w hub d.mode entries full ending

/-- The entries that discovery has published so far. -/
structure Course (w : World) (hub : Hub) (d : Discovery) (entries : List SourceEntry) : Prop where
  ids : d.published = entries.map (·.id)
  within : ∀ m, d.maxItems = some m → entries.length ≤ m
  once : d.mode = .batch → hub.scans.length ≤ 1
  stands : Stands w hub d entries

variable {w : World} {hub hub' : Hub} {d d' : Discovery} {entries : List SourceEntry}

theorem Due.again {n : Nat} (due : d.Due n) (scanned : d.scanned) :
    0 < n ∧ d.mode ≠ .batch ∧ d.limitReached = false := by
  obtain ⟨first, _⟩ | ⟨_, again⟩ := due
  · exact absurd (first.symm.trans scanned) Bool.false_ne_true
  · exact again

theorem Due.first {n : Nat} (due : d.Due n) (first : d.scanned = false) : n = 0 := by
  obtain ⟨_, none⟩ | ⟨scanned, _⟩ := due
  · exact none
  · exact absurd (first.symm.trans scanned) Bool.false_ne_true

theorem course_first (w : World) (hub : Hub) (none : hub.scans = []) (mode : DiscoveryMode)
    (limit : Option Nat) : Course w hub { mode, maxItems := limit } [] where
  ids := rfl
  within _ _ := Nat.zero_le _
  once _ := by simp [none]
  stands := by
    simp only [Stands, none, List.length_nil]
    exact ⟨.inl ⟨rfl, rfl⟩, .nothing⟩

theorem Course.congr (course : Course w hub d entries) (scans : hub'.scans = hub.scans)
    (cancelled : hub.cancelled → hub'.cancelled) : Course w hub' d entries where
  ids := course.ids
  within := course.within
  once := by rw [scans]; exact course.once
  stands := by
    have stands := course.stands
    unfold Stands Listed at stands ⊢
    rw [scans]
    dsimp only at stands ⊢
    split at stands
    · exact stands
    · exact stands
    · exact stands
    · exact stands
    · obtain ⟨full, gathers, before, ends⟩ := stands
      refine ⟨full, gathers, before, ?_⟩
      cases ends with
      | returned eq listed => exact .returned eq (by rwa [Listed, scans])
      | cancelled token => exact .cancelled (cancelled token)
      | refused => exact .refused
      | failed messages single nothing fails =>
          exact .failed messages (scans ▸ single) nothing fails
      | panicked n eq last panics => exact .panicked n eq (scans ▸ last) panics
      | aborted => exact .aborted

/-- The answer that discovery waits for is the last one. -/
theorem Course.answer (course : Course w hub d entries) {due : Option Nat}
    {reply : Reply (List String) (List SourceEntry)} (at_ : d.point = .listing due reply) :
    ∃ n, hub.scans.length = n + 1 ∧ (w.catalog n).reply = reply ∧ d.Due n ∧
      Gathers d.maxItems (w.answers n) entries ∧
      w.answers hub.scans.length = w.answers n ++ [reply] := by
  have stands := course.stands
  simp only [Stands, at_] at stands
  obtain ⟨n, next, rfl, due, gathers⟩ := stands
  exact ⟨n, next, rfl, due, gathers, by rw [next, w.answers_succ]⟩

/-- Discovery can end in this way with what it has published. -/
theorem Course.ended (course : Course w hub d entries) {full : List SourceEntry}
    {ending : Ending Nat} {scanned : Bool}
    (gathers : Gathers d.maxItems (w.answers hub.scans.length) full) (before : entries <+: full)
    (ends : Ends w hub d.mode entries full ending) :
    Course w hub { d with scanned, point := .ended ending } entries :=
  ⟨course.ids, course.within, course.once, full, gathers, before, ends⟩

theorem Course.returned (course : Course w hub d entries) {scanned : Bool}
    (gathers : Gathers d.maxItems (w.answers hub.scans.length) entries)
    (listed : d.mode = .batch → Listed w hub) :
    Course w hub { d with scanned, point := .ended (.returned d.published.length) } entries := by
  have length : d.published.length = entries.length := by rw [course.ids, List.length_map]
  rw [length]
  exact course.ended gathers List.prefix_rfl (.returned rfl listed)

theorem Course.leftBehind (course : Course w hub d entries) (d' : Discovery) :
    Course w (d'.leftBehind hub) d entries :=
  course.congr (leftBehind_same d' hub).1 fun cancelled =>
    (leftBehind_kept d' hub).cancelled.trans cancelled

theorem limitReached_iff : d.limitReached ↔ ∃ m, d.maxItems = some m ∧ m ≤ d.published.length := by
  simp [limitReached, Option.any_eq_true]

/-- When a scan is over, what is published is what the answers come to. A batch has been
listed then. -/
theorem Course.gathers (course : Course w hub d entries) (finished : d.ScanOver hub) :
    0 < hub.scans.length ∧ Gathers d.maxItems (w.answers hub.scans.length) entries ∧
      (d.mode = .batch → Listed w hub) := by
  have stands := course.stands
  obtain ⟨rest, at_, last⟩ | ⟨due, messages, at_, _, scanned⟩ := finished
  · simp only [Stands, at_] at stands
    obtain ⟨n, sources, next, _⟩ := stands.1
    refine ⟨next ▸ Nat.succ_pos n, ?_, fun _ => stands.1⟩
    suffices all : capped d.maxItems (entries ++ rest) = entries from all ▸ stands.2
    obtain rfl | reached := last
    · rw [List.append_nil]
      exact capped_of_within course.within
    · obtain ⟨m, most, many⟩ := limitReached_iff.mp reached
      rw [course.ids, List.length_map] at many
      exact capped_append_of_full most (Nat.le_antisymm (course.within m most) many) rest
  · obtain ⟨n, next, _, due, gathers, answers⟩ := course.answer at_
    rw [answers]
    exact ⟨next ▸ Nat.succ_pos n, gathers.failure (by simp),
      fun batch => absurd batch (due.again scanned).2.1⟩

/-- Below the limit there is room for one entry more. -/
theorem Course.publish (course : Course w hub d entries) {s : SourceEntry}
    {rest : List SourceEntry} (at_ : d.point = .publishing (s :: rest))
    (below : d.limitReached = false) :
    Course w hub { d with published := d.published ++ [s.id], point := .publishing rest }
      (entries ++ [s]) where
  ids := by simp [course.ids]
  within m most := by
    rw [List.length_append, List.length_singleton, Nat.succ_le_iff]
    refine Nat.lt_of_not_le fun many => Bool.eq_false_iff.mp below ?_
    exact limitReached_iff.mpr ⟨m, most, by rwa [course.ids, List.length_map]⟩
  once := course.once
  stands := by
    have stands := course.stands
    simp only [Stands, at_] at stands
    simpa [Stands, Listed] using stands

/-- Some more may be published on the way from one hub to another, but nothing once the run is
cancelled. -/
def Advances (w : World) (hub hub' : Hub) (d : Discovery) (entries : List SourceEntry) : Prop :=
  ∃ new : List SourceEntry, Course w hub' d (entries ++ new) ∧
    hub'.work.buffer = hub.work.buffer ++ new.map workItem ∧
    hub'.stats.discovered = hub.stats.discovered + new.length ∧
    (hub.cancelled → new = [])

theorem Course.silent (course : Course w hub' d entries)
    (buffer : hub'.work.buffer = hub.work.buffer) (stats : hub'.stats = hub.stats) :
    Advances w hub hub' d entries :=
  ⟨[], by simpa using course, by simp [buffer], by simp [stats], fun _ => rfl⟩

theorem Course.gives_up (course : Course w hub d entries) (d' : Discovery) :
    Advances w hub (d'.leftBehind hub) d entries := by
  obtain ⟨_, buffer, stats⟩ := leftBehind_same d' hub
  exact (course.leftBehind d').silent buffer stats

theorem Course.moves (course : Course w hub d entries) (h : d.Moves w hub hub' d') :
    Advances w hub hub' d' entries := by
  have stands := course.stands
  cases h with
  | scan at_ =>
      simp only [Stands, at_] at stands
      refine Course.silent ⟨course.ids, course.within, fun batch => ?_, ?_⟩ rfl rfl
      · obtain ⟨_, none⟩ | ⟨_, _, polls, _⟩ := stands.1
        · simp [none]
        · exact absurd batch polls
      · exact ⟨hub.scans.length, by simp, rfl, stands.1, stands.2⟩
  | panic due at_ now =>
      obtain ⟨n, next, reply, _, gathers, answers⟩ := course.answer at_
      have gathers := answers ▸ gathers.failure (by simp)
      exact (course.ended gathers List.prefix_rfl (.panicked n rfl next reply)).silent rfl rfl
  | firstScanFails due messages at_ now first =>
      obtain ⟨n, next, reply, due, gathers, answers⟩ := course.answer at_
      obtain rfl := due.first first
      obtain rfl := gathers.eq_nil
      refine Course.gives_up (course.ended ?_ List.prefix_rfl (.failed messages next rfl reply)) d
      exact answers ▸ gathers.failure (by simp)
  | list due sources at_ now =>
      obtain ⟨n, next, reply, _, gathers, answers⟩ := course.answer at_
      refine Course.silent ⟨course.ids, course.within, course.once, ⟨n, sources, next, reply⟩, ?_⟩
        rfl rfl
      rw [answers]
      exact gathers.listing (course.ids ▸ d.adds_fresh sources)
  | publish s rest at_ below live =>
      have one := course.publish at_ below
      exact ⟨[s], one.congr rfl id, rfl, rfl,
        fun cancelled => absurd (live.symm.trans cancelled) Bool.false_ne_true⟩
  | giveUp s rest at_ below cancelled =>
      simp only [Stands, at_] at stands
      refine Course.gives_up (course.ended stands.2 ?_ (.cancelled cancelled)) d
      exact prefix_capped_append course.within _
  | refused s rest at_ =>
      simp only [Stands, at_] at stands
      refine Course.gives_up (course.ended stands.2 ?_ .refused) d
      exact prefix_capped_append course.within _
  | complete finished last =>
      obtain ⟨_, gathers, listed⟩ := course.gathers finished
      refine Course.silent ?_ rfl rfl
      exact (course.returned gathers listed).congr rfl id
  | rest interval finished polls below =>
      obtain ⟨some, gathers, _⟩ := course.gathers finished
      refine Course.silent ⟨course.ids, course.within, course.once, rfl, .inr ⟨rfl, some, ?_, below⟩,
        gathers⟩ rfl rfl
      simp [polls]
  | stop due at_ cancelled =>
      simp only [Stands, at_] at stands
      obtain ⟨scanned, due, gathers⟩ := stands
      have again (batch : d.mode = .batch) : Listed w hub := absurd batch (due.again scanned).2.1
      exact (course.returned gathers again).gives_up d
  | wake due at_ live now =>
      simp only [Stands, at_] at stands
      exact Course.silent ⟨course.ids, course.within, course.once, stands.2⟩ rfl rfl

theorem Course.abort (course : Course w hub d entries) : Course w hub d.abort entries := by
  have stands := course.stands
  unfold Discovery.abort
  cases at_ : d.point with
  | ended => exact course
  | scanning =>
      simp only [Stands, at_] at stands
      exact course.ended stands.2 List.prefix_rfl .aborted
  | resting =>
      simp only [Stands, at_] at stands
      exact course.ended stands.2.2 List.prefix_rfl .aborted
  | publishing rest =>
      simp only [Stands, at_] at stands
      exact course.ended stands.2 (prefix_capped_append course.within rest) .aborted
  | listing due reply =>
      obtain ⟨n, _, _, _, gathers, answers⟩ := course.answer at_
      cases reply with
      | panics | fails =>
          exact course.ended (answers ▸ gathers.failure (by simp)) List.prefix_rfl .aborted
      | gives sources =>
          exact course.ended (answers ▸ gathers.listing (course.ids ▸ d.adds_fresh sources))
            (prefix_capped_append course.within _) .aborted

theorem Ends.of_returned {mode : DiscoveryMode} {full : List SourceEntry} {n : Nat}
    (ends : Ends w hub mode entries full (.returned n)) :
    n = entries.length ∧ entries = full ∧ (mode = .batch → Listed w hub) := by
  cases ends with
  | returned eq listed => exact ⟨rfl, eq, listed⟩

theorem Ends.of_faulted {mode : DiscoveryMode} {full : List SourceEntry} {fault : Fault}
    (ends : Ends w hub mode entries full (.faulted fault)) (open_ : fault ≠ .queueClosed) :
    hub.cancelled ∧ fault = .cancelled ∨
      ∃ messages, (w.catalog 0).reply = .fails messages ∧ hub.scans.length = 1 ∧ full = [] ∧
        fault = .discovery (Failure.chain messages) := by
  cases ends with
  | cancelled token => exact .inl ⟨token, rfl⟩
  | refused => exact absurd rfl open_
  | failed messages single nothing fails => exact .inr ⟨messages, fails, single, nothing, rfl⟩

/-- What is published begins what the answers come to that have come. -/
theorem Course.answered (course : Course w hub d entries) :
    ∃ full, Gathers d.maxItems (w.answers (d.heard hub)) full ∧ entries <+: full ∧
      ((∀ rest, d.point ≠ .publishing rest) → (∀ e, d.point ≠ .ended e) → entries = full) ∧
      ∀ e, d.point = .ended e → Ends w hub d.mode entries full e := by
  have stands := course.stands
  unfold heard
  cases at_ : d.point with
  | scanning =>
      simp only [Stands, at_] at stands
      exact ⟨entries, stands.2, List.prefix_rfl, by simp⟩
  | listing due reply =>
      simp only [Stands, at_] at stands
      obtain ⟨n, next, _, _, gathers⟩ := stands
      exact ⟨entries, by simpa [next] using gathers, List.prefix_rfl, by simp⟩
  | publishing rest =>
      simp only [Stands, at_] at stands
      exact ⟨_, stands.2, prefix_capped_append course.within rest, by simp⟩
  | resting due =>
      simp only [Stands, at_] at stands
      exact ⟨entries, stands.2.2, List.prefix_rfl, by simp⟩
  | ended e =>
      simp only [Stands, at_] at stands
      obtain ⟨full, gathers, before, ends⟩ := stands
      exact ⟨full, gathers, before, by simp, by rintro _ ⟨⟩; exact ends⟩

theorem Course.heard_le_one (course : Course w hub d entries) (batch : d.mode = .batch) :
    d.heard hub ≤ 1 := by
  have once := course.once batch
  unfold heard
  split <;> omega

/-- The ids of a batch rise. -/
theorem Course.rises (course : Course w hub d entries) (batch : d.mode = .batch) :
    d.published.Pairwise (· < ·) := by
  obtain ⟨full, gathers, begins, _⟩ := course.answered
  rw [course.ids]
  exact (gathers.rises (course.heard_le_one batch)).sublist (begins.sublist.map _)

end Discovery

end DecodePipeline
