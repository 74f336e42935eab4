import DecodePipeline.Proofs.SourceDirectory
import DecodePipeline.Proofs.Stage.Publication
import DecodePipeline.Run.Session

/-!
A directory is listed in the order in which the system enumerates it. Two feeds over one directory that
is enumerated in two orders publish the same ids, and each id with the file that was enumerated first.
-/

namespace DecodePipeline

theorem canonicalOrder_ids_of_perm {sources sources' : List SourceEntry}
    (same : sources.Perm sources') :
    (canonicalOrder sources).map (·.id) = (canonicalOrder sources').map (·.id) := by
  refine List.Pairwise.eq_of_mem_iff (canonicalOrder_ids_rise sources)
    (canonicalOrder_ids_rise sources') fun p => ?_
  rw [mem_ids_canonicalOrder, mem_ids_canonicalOrder]
  exact (same.map _).mem_iff

/-- A first listing adds its canonical order. -/
theorem Adds.eq_canonicalOrder {sources new : List SourceEntry} (adds : Adds [] sources new) :
    new = canonicalOrder sources := by
  have fresh := Discovery.adds_fresh { mode := .batch, maxItems := none } sources
  have all : Discovery.fresh { mode := .batch, maxItems := none } sources =
      canonicalOrder sources := by
    simp [Discovery.fresh]
  exact adds.unique (all ▸ fresh)

theorem Discovery.workItem_injective : Function.Injective workItem := by
  intro s s' same
  simp only [workItem, WorkItem.queued, WorkItem.new, WorkItem.mk.injEq] at same
  cases s
  cases s'
  simp_all

namespace SourceDirectory

/-- The file that a listing gives an id to: the first one. -/
def chosen? (d : SourceDirectory) (listing : List (String × Node)) (id : String) : Option String :=
  (listing.find? fun e => (d.source? e).any (·.id = id)).map (·.1)

variable {d : SourceDirectory} {listing listing' : List (String × Node)} {p : String}

theorem find?_source (listed : p ∈ (listing.filterMap d.source?).map (·.id)) :
    ∃ e ∈ listing, d.chosen? listing p = some e.1 ∧
      (listing.filterMap d.source?).find? (·.id = p) = some ⟨p, Path.join d.root e.1⟩ := by
  obtain ⟨s, mem, rfl⟩ := List.mem_map.mp listed
  obtain ⟨own, inside, source⟩ := List.mem_filterMap.mp mem
  obtain ⟨e, first⟩ : ∃ e, listing.find? (fun e => (d.source? e).any (·.id = s.id)) = some e :=
    Option.isSome_iff_exists.mp (List.find?_isSome.mpr ⟨own, inside, by simp [source]⟩)
  obtain ⟨chosen, given, same⟩ : ∃ chosen, d.source? e = some chosen ∧ chosen.id = s.id := by
    simpa [Option.any_eq_true] using List.find?_some first
  have path := (source?_eq_some given).2.2
  refine ⟨e, List.mem_of_find?_eq_some first, by simp [chosen?, first], ?_⟩
  rw [List.find?_filterMap, first, Option.bind_some, given, ← same, ← path]

/-- An id comes with the same path in two listings if both give it to one file. -/
theorem find?_eq_iff (plain : ∀ e ∈ listing ++ listing', '/' ∉ e.1.toList)
    (listed : p ∈ (listing.filterMap d.source?).map (·.id))
    (listed' : p ∈ (listing'.filterMap d.source?).map (·.id)) :
    (listing.filterMap d.source?).find? (·.id = p) =
        (listing'.filterMap d.source?).find? (·.id = p) ↔
      d.chosen? listing p = d.chosen? listing' p := by
  obtain ⟨e, mem, chosen, found⟩ := find?_source listed
  obtain ⟨e', mem', chosen', found'⟩ := find?_source listed'
  rw [chosen, chosen', found, found', Option.some_inj, Option.some_inj, SourceEntry.mk.injEq]
  constructor
  · rintro ⟨_, paths⟩
    exact Path.join_injective (plain e (by simp [mem])) (plain e' (by simp [mem'])) paths
  · intro names
    exact ⟨rfl, by rw [names]⟩

end SourceDirectory

section

variable {sources sources' entries entries' : List SourceEntry} {limit : Option Nat}

/-- Entries in canonical order are known by their ids and by what was listed first. -/
theorem eq_iff_of_canonicalOrder (sub : entries ⊆ canonicalOrder sources)
    (sub' : entries' ⊆ canonicalOrder sources') (ids : entries.map (·.id) = entries'.map (·.id)) :
    entries = entries' ↔
      ∀ p ∈ entries.map (·.id), sources.find? (·.id = p) = sources'.find? (·.id = p) := by
  have found {l entries : List SourceEntry} (sub : entries ⊆ canonicalOrder l) :
      entries.map some = (entries.map (·.id)).map fun p => l.find? (·.id = p) := by
    rw [List.map_map]
    exact List.map_congr_left fun s mem => (first_of_mem_canonicalOrder (sub mem)).symm
  have injective := List.map_injective_iff.mpr (Option.some_injective SourceEntry)
  rw [← injective.eq_iff, found sub, found sub', ← ids]
  exact List.map_inj_left

theorem capped_ids_of_perm (same : sources.Perm sources') (limit : Option Nat) :
    (capped limit (canonicalOrder sources)).map (·.id) =
      (capped limit (canonicalOrder sources')).map (·.id) := by
  have ids := canonicalOrder_ids_of_perm same
  have length : (canonicalOrder sources).length = (canonicalOrder sources').length := by
    simpa using congrArg List.length ids
  rw [capped, capped, List.map_take, List.map_take, ids, length]

/-- Where no id is listed twice, each id is listed with the same path. -/
theorem find?_of_perm (same : sources.Perm sources') (distinct : (sources.map (·.id)).Nodup)
    (p : String) : sources.find? (·.id = p) = sources'.find? (·.id = p) := by
  cases found : sources.find? (·.id = p) with
  | none =>
      have absent := List.find?_eq_none.mp found
      exact (List.find?_eq_none.mpr fun s mem => absent s (same.mem_iff.mpr mem)).symm
  | some s =>
      have mem := List.mem_of_find?_eq_some found
      have id : s.id = p := by simpa using List.find?_some found
      obtain ⟨s', found'⟩ : ∃ s', sources'.find? (·.id = p) = some s' :=
        Option.isSome_iff_exists.mp
          (List.find?_isSome.mpr ⟨s, same.mem_iff.mp mem, decide_eq_true id⟩)
      have id' : s'.id = p := by simpa using List.find?_some found'
      have mem' := same.mem_iff.mpr (List.mem_of_find?_eq_some found')
      rw [found', List.inj_on_of_nodup_map distinct mem mem' (id.trans id'.symm)]

end

namespace Feed

variable {w w' : World} {f f' : Feed} {mode : DiscoveryMode} {limit : Option Nat}
  {sources sources' entries : List SourceEntry}

/-- All that was published so far. -/
def items (f : Feed) : List WorkItem := f.taken ++ f.hub.work.buffer

/-- Discovery has come to an end by itself. -/
def Returned (f : Feed) : Prop := ∃ n, f.discovery.point = .ended (.returned n)

/-- A batch publishes from the front the entries of its one listing in canonical order, up to the
limit, and all of them before it returns. -/
theorem Fed.lists (fed : Fed w .batch limit f entries)
    (reply : (w.catalog 0).reply = .gives sources) :
    entries <+: capped limit (canonicalOrder sources) ∧
      (f.Returned → entries = capped limit (canonicalOrder sources)) := by
  obtain ⟨full, gathers, begins, _, ends⟩ := fed.course.answered
  have batch := fed.mode
  have heard := fed.course.heard_le_one batch
  rw [fed.limit] at gathers
  obtain none | one := Nat.le_one_iff_eq_zero_or_eq_one.mp heard
  · rw [none] at gathers
    obtain rfl := gathers.eq_nil
    obtain rfl := List.prefix_nil.mp begins
    refine ⟨List.nil_prefix, fun ⟨n, returned⟩ => ?_⟩
    obtain ⟨k, _, scans, _⟩ := (ends _ returned).of_returned.2.2 batch
    simp [Discovery.heard, returned, scans] at none
  · rw [one] at gathers
    obtain ⟨_, new, given, adds, rfl⟩ | ⟨_, nothing⟩ := gathers.of_one
    · obtain rfl := Reply.gives.inj (reply.symm.trans given)
      obtain rfl := adds.eq_canonicalOrder
      exact ⟨begins, fun ⟨n, returned⟩ => (ends _ returned).of_returned.2.1⟩
    · exact absurd reply (nothing sources)

theorem Fed.items_eq (fed : Fed w mode limit f entries) :
    f.items = entries.map Discovery.workItem := fed.items

/-- From where it begins to publish, a batch comes to its end if each item is taken in turn. -/
theorem exists_returned_of_publishing {rest : List SourceEntry}
    (at_ : f.discovery.point = .publishing rest) (batch : f.discovery.mode = .batch)
    (live : f.hub.cancelled = false) (open_ : f.hub.work.closed = false)
    (empty : f.hub.work.buffer = []) (room : 0 < f.hub.work.capacity) :
    ∃ f', Relation.ReflTransGen (Event w) f f' ∧ f'.Returned := by
  induction rest generalizing f with
  | nil =>
      have ends : f.discovery.step w f.hub = some (f.discovery.afterScan f.hub) := by
        simp [Discovery.step, at_]
      refine ⟨_, .single (.step ends), f.discovery.published.length, ?_⟩
      simp [batch, Discovery.finish]
  | cons s rest ih =>
      cases full : f.discovery.limitReached with
      | true =>
          have ends : f.discovery.step w f.hub = some (f.discovery.afterScan f.hub) := by
            simp [Discovery.step, at_, full]
          refine ⟨_, .single (.step ends), f.discovery.published.length, ?_⟩
          simp [batch, Discovery.finish]
      | false =>
          have pushed := Queue.tryPush_of_room open_ (by simpa [empty] using room)
            (Discovery.workItem s)
          have published : f.discovery.step w f.hub = some
              ({ f.hub with work := { f.hub.work with buffer := [Discovery.workItem s] } }.count
                  Stats.addDiscovered,
                { f.discovery with
                  published := f.discovery.published ++ [s.id], point := .publishing rest }) := by
            simp [Discovery.step, at_, full, live, pushed, empty]
          obtain ⟨f', later, returned⟩ := ih (f := { f with
            hub := { f.hub with work := { f.hub.work with buffer := [] } }.count Stats.addDiscovered
            discovery := { f.discovery with
              published := f.discovery.published ++ [s.id], point := .publishing rest }
            taken := f.taken ++ [Discovery.workItem s] }) rfl batch live open_ rfl room
          exact ⟨f', .head (.step published) (.head (.take rfl) later), returned⟩

/-- A batch can always come to its end. -/
theorem exists_returned {delay : Nat} {capacity : Nat} (room : 0 < capacity)
    (lists : w.catalog 0 = ⟨some delay, .gives sources⟩) (limit : Option Nat) :
    ∃ f, Relation.ReflTransGen (Event w) (start capacity .batch limit) f ∧ f.Returned := by
  let begun : Feed := start capacity .batch limit
  let scanned : Feed := { begun with
    hub := { begun.hub with scans := [0] }
    discovery := { begun.discovery with point := .listing (some delay) (.gives sources) } }
  have scan : Event w begun scanned := .step (by simp [Discovery.step, begun, start, lists, dueAt])
  have wait := Event.clock (w := w) (f := scanned) delay (Nat.zero_le delay)
  have listed : Event w { scanned with hub := { scanned.hub with now := delay } } { scanned with
      hub := { scanned.hub with now := delay }
      discovery := { scanned.discovery with
        point := .publishing (scanned.discovery.fresh sources) } } :=
    .step (by simp [Discovery.step, scanned, isDue, Discovery.fresh])
  obtain ⟨f, later, returned⟩ := exists_returned_of_publishing (w := w) (f := { scanned with
    hub := { scanned.hub with now := delay }
    discovery := { scanned.discovery with
      point := .publishing (scanned.discovery.fresh sources) } }) rfl rfl rfl rfl rfl room
  exact ⟨f, .head scan (.head wait (.head listed later)), returned⟩

/-- What two batches over one directory have in common that is enumerated in two orders. -/
structure SameWork (d : SourceDirectory) (listing listing' : List (String × Node)) (f f' : Feed) :
    Prop where
  ids : f.discovery.published <+: f'.discovery.published ∨
    f'.discovery.published <+: f.discovery.published
  all : f.Returned → f'.Returned → f.discovery.published = f'.discovery.published
  works : f.Returned → f'.Returned →
    (f.items = f'.items ↔
      ∀ p ∈ f.discovery.published, d.chosen? listing p = d.chosen? listing' p)
  clear : ((listing.filterMap d.source?).map (·.id)).Nodup →
    (f.items <+: f'.items ∨ f'.items <+: f.items) ∧
      (f.Returned → f'.Returned → f.items = f'.items)

/-- Two batches over one directory publish the same ids however it is enumerated. They publish the same
items, and these from the same files, if and only if both orders have the same file first for each id. -/
theorem directory_publishes_alike {d : SourceDirectory} {t t' : FileTree} {cwd cwd' : Location}
    {listing listing' : List (String × Node)} {capacity capacity' : Nat} (sound : t.Sound)
    (sound' : t'.Sound) (lists : t.list cwd d.root = .ok listing)
    (lists' : t'.list cwd' d.root = .ok listing') (same : listing.Perm listing')
    (asks : (w.catalog 0).reply = Crew.replyOf (d.list t cwd))
    (asks' : (w'.catalog 0).reply = Crew.replyOf (d.list t' cwd'))
    (reached : Relation.ReflTransGen (Event w) (start capacity .batch limit) f)
    (reached' : Relation.ReflTransGen (Event w') (start capacity' .batch limit) f') :
    SameWork d listing listing' f f' := by
  obtain ⟨_, fed, _⟩ := (fed_start w capacity .batch limit).reached reached
  obtain ⟨_, fed', _⟩ := (fed_start w' capacity' .batch limit).reached reached'
  rw [SourceDirectory.list_eq_ok.mpr ⟨listing, lists, rfl⟩] at asks
  rw [SourceDirectory.list_eq_ok.mpr ⟨listing', lists', rfl⟩] at asks'
  obtain ⟨begins, complete⟩ := fed.lists asks
  obtain ⟨begins', complete'⟩ := fed'.lists asks'
  have sources := same.filterMap d.source?
  have ids := capped_ids_of_perm sources limit
  have alike := eq_iff_of_canonicalOrder (isPrefix_capped limit _).subset
    (isPrefix_capped limit _).subset ids
  have items_iff (entries entries' : List SourceEntry) :
      entries.map Discovery.workItem = entries'.map Discovery.workItem ↔ entries = entries' :=
    (List.map_injective_iff.mpr Discovery.workItem_injective).eq_iff
  constructor
  case ids =>
    rw [fed.course.ids, fed'.course.ids]
    exact List.prefix_or_prefix_of_prefix (begins.map _) (ids ▸ begins'.map _)
  case all =>
    intro returned returned'
    rw [fed.course.ids, fed'.course.ids, complete returned, complete' returned', ids]
  case works =>
    intro returned returned'
    rw [fed.items_eq, fed'.items_eq, items_iff, fed.course.ids, complete returned,
      complete' returned', alike]
    refine forall₂_congr fun p mem => ?_
    have listed : p ∈ (listing.filterMap d.source?).map (·.id) := by
      rw [← mem_ids_canonicalOrder]
      exact List.map_subset _ (isPrefix_capped limit _).subset mem
    refine SourceDirectory.find?_eq_iff (fun e inside => ?_) listed
      ((sources.map _).mem_iff.mp listed)
    obtain inside | inside := List.mem_append.mp inside
    · exact (sound.legal_of_list lists inside).plain
    · exact (sound'.legal_of_list lists' inside).plain
  case clear =>
    intro distinct
    have full := alike.mpr fun p _ => find?_of_perm sources distinct p
    rw [fed.items_eq, fed'.items_eq, items_iff]
    refine ⟨?_, fun returned returned' => ?_⟩
    · rw [← full] at begins'
      exact List.prefix_or_prefix_of_prefix (begins.map _) (begins'.map _)
    · rw [complete returned, complete' returned', full]

/-- A tree with nothing but these empty files, enumerated in this order. -/
def folder (names : List String) : FileTree :=
  ⟨(["in"], .directory) :: names.map fun name => (["in", name], .file [] false)⟩

def streams : SourceDirectory := ⟨"/in", "bin"⟩

def folderWorld (names : List String) : World where
  catalog _ := Crew.instantly (streams.list (folder names) [])
  decoder _ _ := { delay := none, reply := .panics, heeds := false }
  reset := ⟨none, .panics⟩
  accept _ _ := ⟨none, .panics⟩

theorem catalog_folderWorld {names : List String} {sources : List SourceEntry}
    (lists : streams.list (folder names) [] = .ok sources) (n : Nat) :
    (folderWorld names).catalog n = ⟨some 0, .gives sources⟩ := by
  simp [folderWorld, Crew.instantly, Crew.replyOf, lists]

/-- A batch over a folder publishes what the listing adds. -/
theorem exists_batch_over_folder {names : List String} {sources new : List SourceEntry}
    (lists : streams.list (folder names) [] = .ok sources) (adds : Adds [] sources new) :
    ∃ f : Feed, Relation.ReflTransGen (Event (folderWorld names)) (start 1 .batch none) f ∧
      f.Returned ∧ f.items = new.map Discovery.workItem := by
  have catalog := catalog_folderWorld lists
  obtain ⟨f, reached, returned⟩ := exists_returned Nat.one_pos (catalog 0) none
  obtain ⟨entries, fed, _⟩ := (fed_start (folderWorld names) 1 .batch none).reached reached
  have all := (fed.lists (by rw [catalog])).2 returned
  refine ⟨f, reached, returned, ?_⟩
  rw [fed.items_eq, all, adds.eq_canonicalOrder]
  simp [capped]

/-- Two files with one id: the one that is enumerated first is published. -/
theorem published_file_follows_enumeration :
    (folder ["a.BIN", "a.bin"]).list [] "/in" =
        .ok [("a.BIN", .file [] false), ("a.bin", .file [] false)] ∧
      (folder ["a.bin", "a.BIN"]).list [] "/in" =
        .ok [("a.bin", .file [] false), ("a.BIN", .file [] false)] ∧
      ∃ f f' : Feed,
        Relation.ReflTransGen (Event (folderWorld ["a.BIN", "a.bin"])) (start 1 .batch none) f ∧
        Relation.ReflTransGen (Event (folderWorld ["a.bin", "a.BIN"])) (start 1 .batch none) f' ∧
        f.Returned ∧ f'.Returned ∧
        f.items.map (fun item => (item.id, item.source)) = [("a", "/in/a.BIN")] ∧
        f'.items.map (fun item => (item.id, item.source)) = [("a", "/in/a.bin")] := by
  have lists : streams.list (folder ["a.BIN", "a.bin"]) [] =
      .ok [⟨"a", "/in/a.BIN"⟩, ⟨"a", "/in/a.bin"⟩] := by
    decide +kernel
  have lists' : streams.list (folder ["a.bin", "a.BIN"]) [] =
      .ok [⟨"a", "/in/a.bin"⟩, ⟨"a", "/in/a.BIN"⟩] := by
    decide +kernel
  have adds : Adds [] [⟨"a", "/in/a.BIN"⟩, ⟨"a", "/in/a.bin"⟩] [⟨"a", "/in/a.BIN"⟩] :=
    ⟨by simp, by simp, by decide⟩
  have adds' : Adds [] [⟨"a", "/in/a.bin"⟩, ⟨"a", "/in/a.BIN"⟩] [⟨"a", "/in/a.bin"⟩] :=
    ⟨by simp, by simp, by decide⟩
  obtain ⟨f, reached, returned, items⟩ := exists_batch_over_folder lists adds
  obtain ⟨f', reached', returned', items'⟩ := exists_batch_over_folder lists' adds'
  refine ⟨by decide +kernel, by decide +kernel, f, f', reached, reached', returned, returned', ?_⟩
  rw [items, items']
  exact ⟨rfl, rfl⟩

/-- Three files in two orders: the ids and the items are the same. -/
theorem directory_publishes_alike_two_streams :
    ∃ f f' : Feed, f.Returned ∧ f'.Returned ∧
      SameWork streams
        [("b.bin", .file [] false), ("notes", .file [] false), ("a.BIN", .file [] false)]
        [("a.BIN", .file [] false), ("b.bin", .file [] false), ("notes", .file [] false)] f f' ∧
      f.items = f'.items := by
  have lists : streams.list (folder ["b.bin", "notes", "a.BIN"]) [] =
      .ok [⟨"b", "/in/b.bin"⟩, ⟨"a", "/in/a.BIN"⟩] := by
    decide +kernel
  have lists' : streams.list (folder ["a.BIN", "b.bin", "notes"]) [] =
      .ok [⟨"a", "/in/a.BIN"⟩, ⟨"b", "/in/b.bin"⟩] := by
    decide +kernel
  have enumerated : (folder ["b.bin", "notes", "a.BIN"]).list [] streams.root =
      .ok [("b.bin", .file [] false), ("notes", .file [] false), ("a.BIN", .file [] false)] := by
    decide +kernel
  have enumerated' : (folder ["a.BIN", "b.bin", "notes"]).list [] streams.root =
      .ok [("a.BIN", .file [] false), ("b.bin", .file [] false), ("notes", .file [] false)] := by
    decide +kernel
  obtain ⟨f, reached, returned⟩ := exists_returned Nat.one_pos (catalog_folderWorld lists 0) none
  obtain ⟨f', reached', returned'⟩ :=
    exists_returned Nat.one_pos (catalog_folderWorld lists' 0) none
  have alike := directory_publishes_alike (by decide +kernel) (by decide +kernel) enumerated
    enumerated' (by decide) rfl rfl reached reached'
  exact ⟨f, f', returned, returned', alike, (alike.clear (by decide +kernel)).2 returned returned'⟩

end Feed

end DecodePipeline
