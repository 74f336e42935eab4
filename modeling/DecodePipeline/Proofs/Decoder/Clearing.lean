import DecodePipeline.Proofs.Decoder.Agreement
import DecodePipeline.Proofs.FileTree.Making

/-!
The listing of frames and their clearing away. The listing is determined by what is in the directory, in
whatever order that is read; behind a clearing it is empty, and so all that is decoded was made since.
-/

namespace DecodePipeline

variable {t t' : FileTree} {cwd l : Location} {id dir path : String} {paths paths' : List String}

namespace Frame

/-- Of two frames of an item, one comes before the other by its index, or at one index by its path. -/
def Before (id path path' : String) : Prop :=
  ∃ i j, index? id path = some i ∧ index? id path' = some j ∧ (i < j ∨ i = j ∧ path < path')

theorem Before.asymm {path' : String} (first : Before id path path') : ¬Before id path' path := by
  obtain ⟨i, j, own, own', order⟩ := first
  rintro ⟨j', i', own'', own''', order'⟩
  cases own.symm.trans own'''
  cases own'.symm.trans own''
  obtain less | ⟨rfl, less⟩ := order <;> obtain less' | ⟨same, less'⟩ := order'
  · exact Nat.lt_asymm less less'
  · exact Nat.lt_irrefl _ (same ▸ less)
  · exact Nat.lt_irrefl _ less'
  · exact String.lt_asymm less less'

end Frame

namespace FrameFile

/-- Of two frames one comes strictly before the other. -/
def lt (a b : FrameFile) : Prop := a.index < b.index ∨ a.index = b.index ∧ a.name < b.name

theorem lt_of_le_of_name_ne {a b : FrameFile} (first : a.le b) (other : a.name ≠ b.name) : a.lt b := by
  obtain less | ⟨same, names⟩ := le_iff.mp first
  · exact .inl less
  · exact .inr ⟨same, lt_of_le_of_ne names other⟩

/-- No frame is listed twice. -/
theorem ofEntries_names_distinct {entries : List (String × Node)}
    (distinct : (entries.map (·.1)).Nodup) :
    (ofEntries id entries).Pairwise fun a b => a.name ≠ b.name := by
  have read : (entries.filterMap (read? id)).Pairwise fun a b => a.name ≠ b.name := by
    refine List.pairwise_filterMap.mpr ((List.pairwise_map.mp distinct).imp ?_)
    intro e e' other f own f' own'
    obtain ⟨_, _, name⟩ := read?_eq_some.mp own
    obtain ⟨_, _, name'⟩ := read?_eq_some.mp own'
    rwa [← name, ← name']
  exact ((List.mergeSort_perm _ _).pairwise_iff Ne.symm).mpr read

theorem ofEntries_sorted {entries : List (String × Node)} (distinct : (entries.map (·.1)).Nodup)
    (id : String) :
    (ofEntries id entries).Pairwise lt :=
  (List.pairwise_mergeSort le_of_le_of_le le_or_le _).imp₂ (fun _ _ => lt_of_le_of_name_ne)
    (ofEntries_names_distinct distinct)

end FrameFile

namespace FileTree

/-- The paths of an item's frames in the directory at a location: those of all regular files there that are
named as frames, each once, by index and then by path. -/
structure Lists (t : FileTree) (id dir : String) (l : Location) (paths : List String) : Prop where
  each : ∀ path, path ∈ paths ↔ ∃ name n, t.node? (l ++ [name]) = some n ∧ n.isFile ∧
    path = Path.join dir name ∧ (Frame.index? id path).isSome
  inOrder : paths.Pairwise (Frame.Before id)

theorem Lists.nodup (lists : Lists t id dir l paths) : paths.Nodup :=
  lists.inOrder.imp fun first same => (same ▸ first).asymm (same ▸ first)

/-- What is in the directory determines the listing. -/
theorem Lists.unique (lists : Lists t id dir l paths) (lists' : Lists t id dir l paths') :
    paths = paths' := by
  have members (path : String) : path ∈ paths ↔ path ∈ paths' :=
    (lists.each path).trans (lists'.each path).symm
  refine List.Perm.eq_of_pairwise (fun _ _ _ _ first first' => absurd first' first.asymm)
    lists.inOrder lists'.inOrder ?_
  exact (List.perm_ext_iff_of_nodup lists.nodup lists'.nodup).mpr members

/-! ## Listing -/

theorem framePaths_of_directory (leads : t.directory cwd dir = .ok l) :
    t.framePaths cwd id dir =
      .ok ((FrameFile.ofEntries id (t.children l)).map fun f => Path.join dir f.name) := by
  have found := find_eq_ok.mpr (directory_eq_ok.mp leads)
  simp [framePaths, frames, tryExists, stat, found, list, leads, Except.map, bind, Except.bind, pure,
    Except.pure]

theorem framePaths_of_notFound (missing : t.find cwd true dir = .error .notFound) :
    t.framePaths cwd id dir = .ok [] := by
  simp [framePaths, frames, tryExists, stat, missing, Except.map, bind, Except.bind, pure, Except.pure]

/-- A directory that cannot be reached has no frames to be listed. -/
theorem framePaths_eq_nil (never : ∀ l, t.directory cwd dir ≠ .ok l)
    (found : t.framePaths cwd id dir = .ok paths) : paths = [] := by
  by_cases left : dir = ""
  · subst left
    have missing : t.find cwd true "" = .error .notFound := rfl
    rw [framePaths_of_notFound missing] at found
    cases found
    rfl
  · obtain ⟨_, ⟨_, none⟩ | ⟨l, leads, _⟩⟩ := framePaths_eq_ok left found
    · exact none
    · exact absurd leads (never l)

theorem lists_framePaths (sound : t.Sound) (leads : t.directory cwd dir = .ok l) (id : String) :
    ∃ paths, t.framePaths cwd id dir = .ok paths ∧ Lists t id dir l paths := by
  have listed {f : FrameFile} (mem : f ∈ FrameFile.ofEntries id (t.children l)) :
      LegalName f.name ∧ Frame.index? id (Path.join dir f.name) = some f.index := by
    obtain ⟨n, child, _, index⟩ := FrameFile.mem_ofEntries.mp mem
    have own := sound.legal_of_entry (sound.mem_children_iff.mp child)
    exact ⟨own, (Frame.index?_join own id dir).trans index⟩
  refine ⟨_, framePaths_of_directory leads, fun path => ⟨fun mem => ?_, ?_⟩, ?_⟩
  · obtain ⟨f, own, rfl⟩ := List.mem_map.mp mem
    obtain ⟨n, child, file, _⟩ := FrameFile.mem_ofEntries.mp own
    exact ⟨f.name, n, sound.mem_children_iff.mp child, file, rfl, by simp [(listed own).2]⟩
  · rintro ⟨name, n, at_, file, rfl, named⟩
    obtain ⟨index, named⟩ := Option.isSome_iff_exists.mp named
    rw [Frame.index?_join (sound.legal_of_entry at_)] at named
    have mem := FrameFile.mem_ofEntries (f := ⟨index, name⟩).mpr
      ⟨n, sound.mem_children_iff.mpr at_, file, named⟩
    exact List.mem_map.mpr ⟨_, mem, rfl⟩
  · have sorted := FrameFile.ofEntries_sorted (sound.children_nodup l) id
    refine List.pairwise_map.mpr (sorted.imp_of_mem fun {a b} mem mem' first => ?_)
    obtain ⟨plain, index⟩ := listed mem
    obtain ⟨plain', index'⟩ := listed mem'
    refine ⟨_, _, index, index', first.imp_right fun ⟨same, names⟩ => ⟨same, ?_⟩⟩
    -- Paths in one directory are ordered as their names are.
    rw [String.lt_iff_toList_lt, Path.toList_join plain.plain, Path.toList_join plain'.plain]
    exact List.append_left_lt (String.lt_iff_toList_lt.mp names)

/-! ## Clearing -/

/-- What is behind a clearing: no frame of the item is listed, and all but frames is as it was. -/
structure Cleared (t t' : FileTree) (cwd : Location) (id dir : String) : Prop where
  sound : t'.Sound
  nothing : t'.framePaths cwd id dir = .ok []
  others : ∀ x, t'.node? x = t.node? x ∨
    t'.node? x = none ∧ ∃ l n, t.directory cwd dir = .ok l ∧ t.node? x = some n ∧ IsFrame id l x n

theorem removeAll_removes {names : List String} (sound : t.Sound)
    (leads : t.directory cwd dir = .ok l)
    (each : ∀ name ∈ names, LegalName name ∧ ∀ n, t.node? (l ++ [name]) = some n → n.isFile)
    (removed : t.removeAll cwd (names.map (Path.join dir)) = (t', .ok ())) :
    ∀ name ∈ names, t'.node? (l ++ [name]) = none := by
  induction names generalizing t with
  | nil => simp
  | cons name names ih =>
      have left : dir ≠ "" := (directory_iff.mp leads).1.filled
      obtain ⟨⟨legal, file⟩, others⟩ := List.forall_mem_cons.mp each
      simp only [List.map_cons, removeAll] at removed
      cases gone : t.remove cwd (Path.join dir name) with
      | error e => simp [gone] at removed
      | ok t₁ =>
          simp only [gone] at removed
          obtain ⟨x, n, found, leaf, rfl⟩ := remove_eq_ok.mp gone
          obtain ⟨rfl, at_⟩ := eq_of_find_join sound left legal.toPlainName leads leaf found
          have pruned : Pruned (fun _ n => n.isFile) t (t.erase (l ++ [name])) :=
            .erase sound at_ leaf (file n at_)
          have leads := directory_keeps (pruned.keepsWays fun _ _ file => file) leads
          have rest := ih pruned.sound leads
            (fun other mem => (others other mem).imp_right fun file n at_ =>
              file n (pruned.sub _ _ at_)) removed
          have fewer : Pruned (fun _ _ => True) (t.erase (l ++ [name]))
              ((t.erase (l ++ [name])).removeAll cwd (names.map (Path.join dir))).1 :=
            removeAll_pruned (.refl pruned.sound) fun _ _ _ _ _ _ => trivial
          rw [removed] at fewer
          have absent : t'.node? (l ++ [name]) = none := by
            obtain same | ⟨_, _, absent, _⟩ := fewer.each (l ++ [name])
            · rw [same, node?_erase t (by simp), if_pos rfl]
            · exact absent
          exact List.forall_mem_cons.mpr ⟨absent, rest⟩

/-- Where clearing goes through to the end, every frame in the directory is gone. -/
theorem clearFrames_removes (sound : t.Sound) (leads : t.directory cwd dir = .ok l)
    (cleared : t.clearFrames cwd id dir = (t', .ok ())) {name : String} {n : Node}
    (at_ : t.node? (l ++ [name]) = some n) (file : n.isFile)
    (named : (Frame.indexOfName? id name.toList).isSome) : t'.node? (l ++ [name]) = none := by
  obtain ⟨index, named⟩ := Option.isSome_iff_exists.mp named
  have listed := FrameFile.mem_ofEntries (f := ⟨index, name⟩).mpr
    ⟨n, sound.mem_children_iff.mpr at_, file, named⟩
  have removed : t.removeAll cwd
      (((FrameFile.ofEntries id (t.children l)).map (·.name)).map (Path.join dir)) = (t', .ok ()) := by
    simpa [clearFrames, framePaths_of_directory leads, Function.comp_def] using cleared
  refine removeAll_removes sound leads (fun other mem => ?_) removed name (List.mem_map_of_mem listed)
  obtain ⟨f, own, rfl⟩ := List.mem_map.mp mem
  obtain ⟨m, child, file, _⟩ := FrameFile.mem_ofEntries.mp own
  have at_ := sound.mem_children_iff.mp child
  refine ⟨sound.legal_of_entry at_, fun m' at_' => ?_⟩
  cases at_.symm.trans at_'
  exact file

theorem cleared_of_clearFrames (sound : t.Sound)
    (cleared : t.clearFrames cwd id dir = (t', .ok ())) : Cleared t t' cwd id dir := by
  by_cases reached : ∃ l, t.directory cwd dir = .ok l
  · obtain ⟨l, leads⟩ := reached
    have left : dir ≠ "" := (directory_iff.mp leads).1.filled
    have pruned : Pruned (fun x n => ∃ l, t.directory cwd dir = .ok l ∧ IsFrame id l x n) t
        (t.clearFrames cwd id dir).1 := clearFrames_pruned sound left cwd
    rw [cleared] at pruned
    have leads' : t'.directory cwd dir = .ok l :=
      directory_keeps (pruned.keepsWays fun _ _ ⟨_, _, _, _, _, file⟩ => file) leads
    obtain ⟨paths, found, lists⟩ := lists_framePaths pruned.sound leads' id
    have none : paths = [] := by
      refine List.eq_nil_iff_forall_not_mem.mpr fun path mem => ?_
      obtain ⟨name, n, at_, file, rfl, named⟩ := (lists.each path).mp mem
      rw [Frame.index?_join (pruned.sound.legal_of_entry at_)] at named
      have gone := clearFrames_removes sound leads cleared (pruned.sub _ _ at_) file named
      rw [gone] at at_
      cases at_
    refine ⟨pruned.sound, none ▸ found, fun x => (pruned.each x).imp_right ?_⟩
    rintro ⟨n, at_, absent, l, leads, own⟩
    exact ⟨absent, l, n, leads, at_, own⟩
  · have never : ∀ l, t.directory cwd dir ≠ .ok l := fun l leads => reached ⟨l, leads⟩
    cases found : t.framePaths cwd id dir with
    | error e => simp [clearFrames, found] at cleared
    | ok paths =>
        obtain rfl := framePaths_eq_nil never found
        simp only [clearFrames, found, removeAll, Prod.mk.injEq, and_true] at cleared
        subst cleared
        exact ⟨sound, found, fun x => .inl rfl⟩

end FileTree

namespace Decoder

open FileTree

variable {d : Decoder} {effect : Effect} {limit : Span} {files : List String}

/-! ## Decoding -/

/-- A frame that was made between two trees: in the first its path leads to no regular file, in the second
it names one; where the path of the directory leads to one place in both, there was none there. -/
structure Made (before after : FileTree) (cwd : Location) (id dir path : String) : Prop where
  absent : ∀ x n, before.find cwd false path = .ok (x, n) → ¬n.isFile
  present : ∃ l name n, after.directory cwd dir = .ok l ∧ after.node? (l ++ [name]) = some n ∧
    n.isFile ∧ path = Path.join dir name ∧ (Frame.index? id path).isSome ∧
      (before.directory cwd dir = .ok l → ∀ m, before.node? (l ++ [name]) = some m → ¬m.isFile)

/-- A directory that was cleared holds no regular file that is named as a frame. -/
theorem no_frame_of_cleared {t₀ : FileTree} (cleared : Cleared t₀ t cwd id dir)
    (leads : t.directory cwd dir = .ok l) {name : String} {n : Node}
    (at_ : t.node? (l ++ [name]) = some n) (named : (Frame.indexOfName? id name.toList).isSome) :
    ¬n.isFile := by
  intro file
  obtain ⟨paths, found, lists⟩ := lists_framePaths cleared.sound leads id
  cases cleared.nothing.symm.trans found
  have legal := cleared.sound.legal_of_entry at_
  rw [← Frame.index?_join legal id dir] at named
  exact List.not_mem_nil ((lists.each _).mpr ⟨name, n, at_, file, rfl, named⟩)

/-- Frames that are listed behind a run were made by it if the directory was cleared before. -/
theorem made_of_framePaths {before after t₀ : FileTree} (cleared : Cleared t₀ before cwd id dir)
    (sound : after.Sound) (found : after.framePaths cwd id dir = .ok files) {file : String}
    (mem : file ∈ files) : Made before after cwd id dir file := by
  have reached : ∃ l, after.directory cwd dir = .ok l := by
    refine by_contra fun never => ?_
    rw [framePaths_eq_nil (not_exists.mp never) found] at mem
    exact List.not_mem_nil mem
  obtain ⟨l, leads⟩ := reached
  have left : dir ≠ "" := (directory_iff.mp leads).1.filled
  obtain ⟨paths, found', lists⟩ := lists_framePaths sound leads id
  cases found.symm.trans found'
  obtain ⟨name, n, at_, regular, rfl, named⟩ := (lists.each file).mp mem
  have legal := sound.legal_of_entry at_
  have index : (Frame.indexOfName? id name.toList).isSome := by
    rwa [← Frame.index?_join legal id dir]
  refine ⟨fun x m finds own => ?_, l, name, n, leads, at_, regular, rfl, named, ?_⟩
  · have leaf : m ≠ .directory := by
      rintro rfl
      cases own
    obtain ⟨l', leads', rfl, at_', _⟩ :=
      (find_join_iff cleared.sound left legal.toPlainName leaf).mp finds
    exact no_frame_of_cleared cleared leads' at_' index own
  · exact fun leads' m at_' => no_frame_of_cleared cleared leads' at_' index

/-- A preparation that goes well has made the directory and cleared it. -/
theorem cleared_of_prepare (sound : t.Sound) (prepared : d.prepare cwd id t = (t', .ok ())) :
    ∃ made, Grown t made ∧ Cleared made t' cwd id (d.itemDirectory id) := by
  have grown := createDirectories_grown sound cwd (d.itemDirectory id)
  refine ⟨_, grown, ?_⟩
  simp only [prepare] at prepared
  rcases made : t.createDirectories cwd (d.itemDirectory id) with ⟨t₁, e | _⟩
  · simp [made] at prepared
  · simp only [made] at prepared grown ⊢
    exact cleared_of_clearFrames grown.sound prepared

/-- An attempt only ends well if its preparation went well. -/
theorem prepare_of_decoded (decoded : (d.decodeBy effect limit cwd id t).result = .ok files) :
    d.prepare cwd id t = ((d.prepare cwd id t).1, .ok ()) := by
  unfold decodeBy at decoded
  rcases prepared : d.prepare cwd id t with ⟨t', e | _⟩
  · simp [prepared] at decoded
  · rfl

/-- The frames of an item in a directory are listed exactly, each once and in order, and none where there
is no directory. Where they are cleared away to the end, none is listed any more and all else is as it was;
so that whatever an attempt reports as decoded was made by its own run of the decoder. -/
theorem frames_listed_and_cleared (sound : t.Sound) (cwd : Location) (id dir : String) :
    (t.find cwd true dir = .error .notFound → t.framePaths cwd id dir = .ok []) ∧
    (∀ l, t.directory cwd dir = .ok l → ∃ paths, t.framePaths cwd id dir = .ok paths ∧
      Lists t id dir l paths ∧ ∀ paths', Lists t id dir l paths' → paths' = paths) ∧
    (∀ t', t.clearFrames cwd id dir = (t', .ok ()) → Cleared t t' cwd id dir) ∧
    ∀ (d : Decoder) (effect : Effect) (limit : Span) (files : List String),
      d.itemDirectory id = dir → (effect (d.prepare cwd id t).1).tree.Sound →
        (d.decodeBy effect limit cwd id t).result = .ok files →
          ∀ file ∈ files,
            Made (d.prepare cwd id t).1 (effect (d.prepare cwd id t).1).tree cwd id dir file := by
  refine ⟨framePaths_of_notFound, fun l leads => ?_, fun t' => cleared_of_clearFrames sound, ?_⟩
  · obtain ⟨paths, found, lists⟩ := lists_framePaths sound leads id
    exact ⟨paths, found, lists, fun paths' lists' => lists'.unique lists⟩
  · rintro d effect limit files rfl sound' decoded file mem
    obtain ⟨_, _, cleared⟩ := cleared_of_prepare sound (prepare_of_decoded decoded)
    obtain ⟨found, _⟩ := collect_eq_ok (decodeBy_eq_ok decoded)
    exact made_of_framePaths cleared sound' found mem

/-- Behind a frame of an earlier run, a link and a directory named as frames and a frame of another item,
an attempt reports what its own run has left. -/
theorem frames_listed_and_cleared_second_run :
    let others : List (Location × Node) := [(["out"], .directory), (["out", "a"], .directory),
      (["out", "a", "a_dec_0008.ply"], .link "a_dec_0007.ply"),
      (["out", "a", "a_dec_0009.ply"], .directory), (["out", "a", "b_dec_0000.ply"], .file [] false)]
    let t : FileTree := ⟨others ++ [(["out", "a", "a_dec_0007.ply"], .file [] false)]⟩
    let d : Decoder := { program := "/decoder", outputRoot := "/out" }
    let run := leaving ["out", "a"] ["a_dec_0003.ply"]
    t.Sound ∧ Lists t "a" "/out/a" ["out", "a"] ["/out/a/a_dec_0007.ply"] ∧
      Cleared t ⟨others⟩ [] "a" "/out/a" ∧
      (d.decodeBy run ⟨1⟩ [] "a" t).result = .ok ["/out/a/a_dec_0003.ply"] ∧
        Made ⟨others⟩ (run ⟨others⟩).tree [] "a" "/out/a" "/out/a/a_dec_0003.ply" := by
  intro others t d run
  have sound : t.Sound := by decide +kernel
  have leads : t.directory [] "/out/a" = .ok ["out", "a"] := by decide +kernel
  have listed : t.framePaths [] "a" "/out/a" = .ok ["/out/a/a_dec_0007.ply"] := by decide +kernel
  have swept : t.clearFrames [] "a" "/out/a" = (⟨others⟩, .ok ()) := by decide +kernel
  have prepared : (d.prepare [] "a" t).1 = ⟨others⟩ := by decide +kernel
  have decoded : (d.decodeBy run ⟨1⟩ [] "a" t).result = .ok ["/out/a/a_dec_0003.ply"] := by
    decide +kernel
  obtain ⟨_, lists, clears, makes⟩ := frames_listed_and_cleared sound [] "a" "/out/a"
  obtain ⟨paths, found, own, _⟩ := lists _ leads
  cases listed.symm.trans found
  have made := makes d run ⟨1⟩ _ (by decide +kernel) (by decide +kernel) decoded _ List.mem_cons_self
  rw [prepared] at made
  exact ⟨sound, own, clears _ swept, decoded, made⟩

end Decoder

end DecodePipeline
