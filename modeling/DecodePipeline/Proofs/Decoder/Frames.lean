import DecodePipeline.Decoder.Frames
import DecodePipeline.Proofs.FileTree.Removal
import Mathlib.Data.List.Sort

/-!
The frames of an item in a directory: they are the regular files named as its frames, their indices never
fall, and clearing touches nothing else.
-/

namespace DecodePipeline

variable {id dir : String} {e : String × Node} {f : FrameFile} {entries : List (String × Node)}

namespace Frame

/-- In a directory the index of a path is that of its name. -/
theorem index?_join {name : String} (legal : LegalName name) (id dir : String) :
    index? id (Path.join dir name) = indexOfName? id name.toList := by
  simp [index?, Path.fileName?_join legal.filled legal.plain legal.notDot legal.notDots]

end Frame

namespace FrameFile

theorem read?_eq_some : read? id e = some f ↔
    e.2.isFile ∧ Frame.indexOfName? id e.1.toList = some f.index ∧ e.1 = f.name := by
  obtain ⟨index, name⟩ := f
  simp only [read?]
  split_ifs with file
  · simp [file]
  · simp [file]

/-- Frames come by index and then by name. -/
theorem le_iff {a b : FrameFile} :
    a.le b ↔ a.index < b.index ∨ a.index = b.index ∧ a.name ≤ b.name := by
  simp only [le]
  split_ifs with same
  · simp [same]
  · simp only [decide_eq_true_eq, same, false_and, or_false]
    omega

theorem le_of_le_of_le (a b c : FrameFile) (ab : a.le b) (bc : b.le c) : a.le c := by
  rw [le_iff] at ab bc ⊢
  obtain ab | ⟨ab, names⟩ := ab <;> obtain bc | ⟨bc, names'⟩ := bc
  · exact .inl (ab.trans bc)
  · exact .inl (bc ▸ ab)
  · exact .inl (ab ▸ bc)
  · exact .inr ⟨ab.trans bc, names.trans names'⟩

theorem le_or_le (a b : FrameFile) : (a.le b || b.le a) = true := by
  rw [Bool.or_eq_true, le_iff, le_iff]
  obtain lt | same | gt := Nat.lt_trichotomy a.index b.index
  · exact .inl (.inl lt)
  · exact (le_total a.name b.name).imp (fun names => .inr ⟨same, names⟩)
      fun names => .inr ⟨same.symm, names⟩
  · exact .inr (.inl gt)

theorem mem_ofEntries : f ∈ ofEntries id entries ↔
    ∃ n, (f.name, n) ∈ entries ∧ n.isFile ∧ Frame.indexOfName? id f.name.toList = some f.index := by
  simp only [ofEntries, List.mem_mergeSort, List.mem_filterMap, read?_eq_some]
  constructor
  · rintro ⟨⟨name, n⟩, mem, file, index, rfl⟩
    exact ⟨n, mem, file, index⟩
  · rintro ⟨n, mem, file, index⟩
    exact ⟨_, mem, file, index, rfl⟩

/-- The indices of the frames in a directory never fall. -/
theorem ofEntries_indices_sorted (id : String) (entries : List (String × Node)) :
    ((ofEntries id entries).map (·.index)).Pairwise (· ≤ ·) := by
  refine List.pairwise_map.mpr ?_
  refine (List.pairwise_mergeSort le_of_le_of_le le_or_le _).imp fun {a b} first => ?_
  obtain lt | ⟨same, _⟩ := le_iff.mp first
  · exact Nat.le_of_lt lt
  · exact Nat.le_of_eq same

end FrameFile

namespace FileTree

variable {t t' : FileTree} {cwd l : Location} {paths : List String} {name : String}

/-- A path is there, is nowhere, or cannot be asked for. -/
theorem framePaths_eq_ok (left : dir ≠ "") (found : t.framePaths cwd id dir = .ok paths) :
    Passable dir ∧
      ((∀ l, t.directory cwd dir ≠ .ok l) ∧ paths = [] ∨
        ∃ l, t.directory cwd dir = .ok l ∧
          paths = (FrameFile.ofEntries id (t.children l)).map fun f => Path.join dir f.name) := by
  simp only [framePaths, frames, tryExists, stat] at found
  cases ends : t.find cwd true dir with
  | error e =>
      have never (l : Location) : t.directory cwd dir ≠ .ok l := by
        simp [directory, ends, bind, Except.bind]
      by_cases missing : e = .notFound
      · subst missing
        refine ⟨passable_of_notFound left ends, .inl ⟨never, ?_⟩⟩
        simpa [ends, Except.map, bind, Except.bind, pure, Except.pure, eq_comm] using found
      · simp [ends, missing, Except.map, bind, Except.bind] at found
  | ok entry =>
      obtain ⟨x, n⟩ := entry
      refine ⟨passable_of_resolve (find_eq_ok.mp ends), .inr ⟨x, ?_⟩⟩
      cases n with
      | directory =>
          have leads : t.directory cwd dir = .ok x := by
            simp [directory, ends, bind, Except.bind, pure, Except.pure]
          refine ⟨leads, ?_⟩
          simpa [ends, list, leads, Except.map, bind, Except.bind, pure, Except.pure, eq_comm]
            using found
      | file | link | sink | zeros | stream | tool =>
          simp [ends, list, directory, Except.map, bind, Except.bind] at found

/-- Every path of a frame is that of a regular file in the directory, named as one. -/
theorem mem_framePaths (sound : t.Sound) (left : dir ≠ "")
    (found : t.framePaths cwd id dir = .ok paths) {path : String} (mem : path ∈ paths) :
    ∃ l name n, t.directory cwd dir = .ok l ∧ t.node? (l ++ [name]) = some n ∧ n.isFile ∧
      LegalName name ∧ (Frame.indexOfName? id name.toList).isSome ∧ path = Path.join dir name := by
  obtain ⟨_, ⟨_, rfl⟩ | ⟨l, leads, rfl⟩⟩ := framePaths_eq_ok left found
  · exact absurd mem List.not_mem_nil
  · obtain ⟨f, listed, rfl⟩ := List.mem_map.mp mem
    obtain ⟨n, child, file, index⟩ := FrameFile.mem_ofEntries.mp listed
    have at_ := sound.mem_children_iff.mp child
    exact ⟨l, f.name, n, leads, at_, file, sound.legal_of_entry at_, by simp [index], rfl⟩

/-- The paths of frames carry indices, and these never fall. -/
theorem framePaths_indices (sound : t.Sound) (left : dir ≠ "")
    (found : t.framePaths cwd id dir = .ok paths) :
    ∃ indices : List Nat, paths.map (Frame.index? id) = indices.map some ∧
      indices.Pairwise (· ≤ ·) := by
  obtain ⟨_, ⟨_, rfl⟩ | ⟨l, leads, rfl⟩⟩ := framePaths_eq_ok left found
  · exact ⟨[], rfl, .nil⟩
  · refine ⟨_, ?_, FrameFile.ofEntries_indices_sorted id (t.children l)⟩
    rw [List.map_map, List.map_map]
    refine List.map_congr_left fun f mem => ?_
    obtain ⟨n, child, _, index⟩ := FrameFile.mem_ofEntries.mp mem
    have legal := sound.legal_of_entry (sound.mem_children_iff.mp child)
    simp [Frame.index?_join legal, index]

theorem removeAll_pruned {gone : Location → Node → Prop} (pruned : Pruned gone t t')
    (kind : ∀ path ∈ paths, ∀ x n, t.find cwd false path = .ok (x, n) → n ≠ .directory →
      gone x n) : Pruned gone t (t'.removeAll cwd paths).1 := by
  induction paths generalizing t' with
  | nil => exact pruned
  | cons path paths ih =>
      simp only [removeAll]
      cases removed : t'.remove cwd path with
      | error e => exact pruned
      | ok t'' =>
          have pruned := pruned.remove (kind path List.mem_cons_self) removed
          exact ih pruned fun path mem => kind path (List.mem_cons_of_mem _ mem)

/-- A regular file named as a frame of an item, in a directory. -/
def IsFrame (id : String) (l x : Location) (n : Node) : Prop :=
  ∃ name, x = l ++ [name] ∧ (Frame.indexOfName? id name.toList).isSome ∧ n.isFile

/-- Clearing removes nothing but frames of the item in the directory. -/
theorem clearFrames_pruned (sound : t.Sound) (left : dir ≠ "") (cwd : Location) :
    Pruned (fun x n => ∃ l, t.directory cwd dir = .ok l ∧ IsFrame id l x n) t
      (t.clearFrames cwd id dir).1 := by
  simp only [clearFrames]
  cases found : t.framePaths cwd id dir with
  | error e => exact .refl sound
  | ok paths =>
      refine removeAll_pruned (.refl sound) fun path mem x n finds leaf => ?_
      obtain ⟨l, name, m, leads, at_, file, legal, index, rfl⟩ := mem_framePaths sound left found mem
      obtain ⟨rfl, at_'⟩ := eq_of_find_join sound left legal.toPlainName leads leaf finds
      cases at_.symm.trans at_'
      exact ⟨l, leads, name, rfl, index, file⟩

end FileTree

end DecodePipeline
