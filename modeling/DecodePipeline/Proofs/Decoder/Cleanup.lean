import DecodePipeline.Decoder.Decode
import DecodePipeline.Proofs.Decoder.Frames
import DecodePipeline.Proofs.Glob.Search

/-!
Cleaning up behind a decoder. A pattern without slashes removes what it names in the output directory of
the item and nothing else, however the search for it spells that directory; two asterisks, which find
directories at any depth, remove nothing but links.
-/

namespace DecodePipeline

namespace Decoder

open FileTree Glob

variable {t t' t'' : FileTree} {cwd l : Location} {gone : Location → Node → Prop}
  {path root id name pattern : String} {paths : List String}

/-! ## Discarding -/

theorem discard_pruned
    (kind : ∀ x n, t.find cwd false path = .ok (x, n) → n ≠ .directory → gone x n)
    (pruned : Pruned gone t t') : Pruned gone t (discard cwd t' path) := by
  simp only [discard]
  cases removed : t'.remove cwd path with
  | error e => exact pruned
  | ok t'' => exact pruned.remove kind removed

theorem discardAll_pruned
    (kind : ∀ path ∈ paths, ∀ x n, t.find cwd false path = .ok (x, n) → n ≠ .directory → gone x n)
    (pruned : Pruned gone t t') : Pruned gone t (paths.foldl (discard cwd) t') :=
  List.foldlRecOn paths _ pruned fun _ pruned path mem => discard_pruned (kind path mem) pruned

/-- What finds no entry is not removed. -/
theorem discard_eq_self (nothing : ∀ x n, t.find cwd false path = .ok (x, n) → n = .directory) :
    discard cwd t path = t := by
  simp only [discard]
  cases removed : t.remove cwd path with
  | error e => rfl
  | ok t' =>
      obtain ⟨x, n, found, leaf, _⟩ := remove_eq_ok.mp removed
      exact absurd (nothing x n found) leaf

/-- An entry that is no directory is gone once it was discarded. -/
theorem discard_removes (sound : t.Sound) (left : path ≠ "") (legal : LegalName name)
    (passable : Passable (Path.join path name)) (leads : t.directory cwd path = .ok l)
    (leaf : t.node? (l ++ [name]) ≠ some .directory) :
    (discard cwd t (Path.join path name)).node? (l ++ [name]) = none := by
  cases at_ : t.node? (l ++ [name]) with
  | none =>
      have absent (x : Location) (n : Node)
          (found : t.find cwd false (Path.join path name) = .ok (x, n)) : n = .directory := by
        refine by_contra fun leaf => ?_
        cases at_.symm.trans (eq_of_find_join sound left legal.toPlainName leads leaf found).2
      rw [discard_eq_self absent, at_]
  | some n =>
      have leaf : n ≠ .directory := fun eq => leaf (at_.trans (congrArg _ eq))
      have found := (find_join_iff sound left legal.toPlainName leaf).mpr
        ⟨l, leads, rfl, at_, legal.toOrdinaryName, passable⟩
      have removed := remove_eq_ok.mpr ⟨_, _, found, leaf, rfl⟩
      simp [discard, removed, Except.toOption, node?_erase]

/-- A name of no directory that was discarded leads to none either. -/
theorem directory_discarded (sound : t.Sound) (left : path ≠ "") (legal : LegalName name)
    (leaf : ∀ l, t.directory cwd path = .ok l → t.node? (l ++ [name]) ≠ some .directory)
    (l : Location) :
    (discard cwd t (Path.join path name)).directory cwd (Path.join path name) ≠ .ok l := by
  intro reaches
  obtain ⟨above, n, leads, at_, _⟩ := directory_join left legal reaches
  have fewer : Pruned (fun _ _ => True) t (discard cwd t (Path.join path name)) :=
    discard_pruned (fun _ _ _ _ => trivial) (.refl sound)
  have leads := fewer.directory leads
  rw [discard_removes sound left legal (directory_iff.mp reaches).1 leads (leaf above leads)] at at_
  cases at_

/-! ## Directories at any depth -/

/-- Where a path leads to no directory, nothing is removed below it. -/
theorem discard_unreached (sound : t.Sound) (searched : t'.Sound) (left : path ≠ "")
    (onward : path ≠ ".") (never : ∀ l, t.directory cwd path ≠ .ok l) (fuel : Nat) :
    (search t' cwd fuel path [.directories]).foldl (discard cwd) t = t := by
  induction fuel generalizing path with
  | zero => rfl
  | succ fuel ih =>
      rw [search_directories onward, List.foldl_flatMap]
      refine List.foldlRecOn (motive := (· = t)) _ _ rfl fun s same name mem => ?_
      subst same
      have legal := legal_of_mem_childNames searched mem
      split_ifs
      · have nothing : discard cwd s (Path.join path name) = s := by
          refine discard_eq_self fun x n found => by_contra fun leaf => ?_
          obtain ⟨l, leads, _⟩ := (find_join_iff sound left legal.toPlainName leaf).mp found
          exact never l leads
        rw [List.foldl_cons, nothing]
        refine ih (Path.join_ne_empty legal.filled path) (Path.join_ne_dot left legal.plain) ?_
        intro l leads
        obtain ⟨above, _, leads, _⟩ := directory_join left legal leads
        exact never above leads
      · rfl

/-- Of the directories below a path only the links to some are removed. -/
theorem discard_directories_pruned (sound : t.Sound) (searched : Pruned gone t t')
    (left : path ≠ "") (onward : path ≠ ".")
    (kind : ∀ l, t.directory cwd path = .ok l →
      ∀ x n, n.isLink → l <+: x → x ≠ l → gone x n)
    (pruned : Pruned gone t t'') (fuel : Nat) :
    Pruned gone t ((search t' cwd fuel path [.directories]).foldl (discard cwd) t'') := by
  induction fuel generalizing path t'' with
  | zero => exact pruned
  | succ fuel ih =>
      rw [search_directories onward, List.foldl_flatMap]
      refine List.foldlRecOn _ _ pruned fun s pruned name mem => ?_
      have legal := legal_of_mem_childNames searched.sound mem
      have left' := Path.join_ne_empty legal.filled path
      have onward' := Path.join_ne_dot left legal.plain
      split_ifs with inner
      · obtain ⟨l', reaches⟩ := isDirectory_iff.mp inner
        have reaches := searched.directory reaches
        obtain ⟨l, n, leads, at_, split⟩ := directory_join left legal reaches
        have named {x : Location} {m : Node} (leaf : m ≠ .directory)
            (found : t.find cwd false (Path.join path name) = .ok (x, m)) :
            x = l ++ [name] ∧ m = n := by
          obtain ⟨place, at_'⟩ := eq_of_find_join sound left legal.toPlainName leads leaf found
          exact ⟨place, Option.some.inj (at_'.symm.trans at_)⟩
        rw [List.foldl_cons]
        obtain ⟨rfl, rfl⟩ | linked := split
        · have kept : Pruned gone t (discard cwd s (Path.join path name)) :=
            discard_pruned (fun x m found leaf => absurd (named leaf found).2 leaf) pruned
          refine ih left' onward' ?_ kept
          intro l' own x m link under other
          cases reaches.symm.trans own
          refine kind l leads x m link ((List.prefix_append l [name]).trans under) ?_
          rintro rfl
          simpa using under.length_le
        · have taken : Pruned gone t (discard cwd s (Path.join path name)) := by
            refine discard_pruned (fun x m found leaf => ?_) pruned
            obtain ⟨rfl, rfl⟩ := named leaf found
            exact kind l leads _ _ linked (List.prefix_append l [name]) (by simp)
          -- The link is gone before anything that was found behind it is looked up.
          have never := directory_discarded pruned.sound left legal fun above own inside => by
            cases leads.symm.trans (pruned.directory own)
            cases at_.symm.trans (pruned.sub _ _ inside)
            cases linked
          rw [discard_unreached taken.sound searched.sound left' onward' never]
          exact taken
      · exact pruned

/-! ## Patterns -/

/-- What patterns reach from a directory: the names in it that one of them stands for, with two asterisks
the links at any depth, with the empty pattern the directory itself where that is a link. -/
inductive Swept (patterns : List String) (t : FileTree) (cwd : Location) (dir : String) :
    Location → Node → Prop where
  | matched {l : Location} {name : String} {n : Node} {pattern : String}
      (leads : t.directory cwd dir = .ok l) (mem : pattern ∈ patterns)
      (accepts : Matches pattern name) : Swept patterns t cwd dir (l ++ [name]) n
  | nested {l x : Location} {n : Node} (leads : t.directory cwd dir = .ok l)
      (mem : "**" ∈ patterns) (link : n.isLink) (under : l <+: x) (other : x ≠ l) :
      Swept patterns t cwd dir x n
  | itself {x : Location} {n : Node} (mem : "" ∈ patterns) (link : n.isLink)
      (found : t.find cwd false dir = .ok (x, n)) : Swept patterns t cwd dir x n

theorem sweep_pruned {patterns : List String} (sound : t.Sound) (plain : PlainName id)
    (other : id ≠ ".") (passable : Passable (Path.join root id)) (mem : pattern ∈ patterns)
    (slashFree : '/' ∉ pattern.toList)
    (pruned : Pruned (Swept patterns t cwd (Path.join root id)) t t') :
    let found := (paths? t' cwd (cleanupQuery (Path.join root id) pattern)).getD []
    Pruned (Swept patterns t cwd (Path.join root id)) t (found.foldl (discard cwd) t') := by
  have left := Path.join_ne_empty plain.filled root
  obtain none | ⟨q, spells, found⟩ := paths?_below_escaped pruned.sound cwd left slashFree
  all_goals simp only [cleanupQuery]
  · rw [none]
    exact pruned
  · have rewritten := spells.rewritten plain other
    obtain ⟨rfl, inside, found⟩ | ⟨piece, fuel, read, filled, found⟩ := found
    all_goals rw [found]
    · obtain ⟨l, leads⟩ := isDirectory_iff.mp inside
      refine discardAll_pruned (fun path own x n finds leaf => ?_) pruned
      obtain rfl := List.mem_singleton.mp own
      have link := isLink_of_find finds (pruned.directory leads) leaf
      exact .itself mem link (rewritten.find passable finds)
    · by_cases deep : piece = .directories
      · subst deep
        refine discard_directories_pruned sound pruned rewritten.filled rewritten.onward ?_ pruned fuel
        intro l leads x n link under other
        have own := eq_of_read?_directories read
        exact .nested (rewritten.directory passable leads) (own ▸ mem) link under other
      · refine discardAll_pruned (fun path own x n finds leaf => ?_) pruned
        obtain ⟨name, plain, accepts, rfl⟩ :=
          mem_search_last pruned.sound rewritten.onward filled slashFree read deep own
        obtain ⟨l, leads, rfl, _⟩ := (find_join_iff sound rewritten.filled plain leaf).mp finds
        exact .matched (rewritten.directory passable leads) mem accepts

/-- Cleaning up removes only what its patterns reach from the output directory. -/
theorem cleanUp_pruned (d : Decoder) (sound : t.Sound) (plain : PlainName id) (other : id ≠ ".")
    (passable : Passable (d.itemDirectory id))
    (slashFree : ∀ pattern ∈ d.cleanupPatterns, '/' ∉ pattern.toList) (cwd : Location) :
    Pruned (Swept d.cleanupPatterns t cwd (d.itemDirectory id)) t
      (d.cleanUp cwd (d.itemDirectory id) t) := by
  simp only [cleanUp]
  refine List.foldlRecOn (motive := Pruned _ t) _ _ (.refl sound) fun t' pruned pattern mem => ?_
  exact sweep_pruned sound plain other passable mem (slashFree pattern mem) pruned

/-- What the collecting of frames comes to: only where their number is right is anything removed. -/
theorem collect_cases (d : Decoder) (cwd : Location) (id : String) (t : FileTree) :
    (∃ frames, t.framePaths cwd id (d.itemDirectory id) = .ok frames ∧
      Frame.countMatches d.expectedFrames frames.length ∧
      d.collect cwd id t = (d.cleanUp cwd (d.itemDirectory id) t, .ok frames)) ∨
    ∃ fault, d.collect cwd id t = (t, .error fault) := by
  unfold collect
  dsimp only
  cases t.framePaths cwd id (d.itemDirectory id) with
  | error e => exact .inr ⟨_, rfl⟩
  | ok frames =>
      dsimp only
      split_ifs with right
      · exact .inl ⟨frames, rfl, right, rfl⟩
      · exact .inr ⟨_, rfl⟩

/-- What is collected are the frames in the output directory, as many as asked for. -/
theorem collect_eq_ok {d : Decoder} {files : List String}
    (collected : d.collect cwd id t = (t', .ok files)) :
    t.framePaths cwd id (d.itemDirectory id) = .ok files ∧
      Frame.countMatches d.expectedFrames files.length := by
  obtain ⟨frames, found, counted, eq⟩ | ⟨fault, eq⟩ := d.collect_cases cwd id t
  all_goals cases collected.symm.trans eq
  exact ⟨found, counted⟩

theorem collect_pruned (d : Decoder) (sound : t.Sound) (plain : PlainName id) (other : id ≠ ".")
    (slashFree : ∀ pattern ∈ d.cleanupPatterns, '/' ∉ pattern.toList) (cwd : Location) :
    Pruned (Swept d.cleanupPatterns t cwd (d.itemDirectory id)) t (d.collect cwd id t).1 := by
  obtain ⟨frames, found, _, eq⟩ | ⟨fault, eq⟩ := d.collect_cases cwd id t
  all_goals rw [eq]
  · have left := Path.join_ne_empty plain.filled d.outputRoot
    exact cleanUp_pruned d sound plain other (framePaths_eq_ok left found).1 slashFree cwd
  · exact .refl sound

end Decoder

end DecodePipeline
