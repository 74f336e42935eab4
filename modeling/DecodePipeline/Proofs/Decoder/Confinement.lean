import DecodePipeline.Proofs.Decoder.Cleanup
import DecodePipeline.Proofs.FileTree.Making
import DecodePipeline.Proofs.SourceDirectory

/-!
The output directories of items. An id that names no directory itself has one of its own, one name below
the output root, and neither making it nor clearing it nor cleaning up in it touches anything else.
-/

namespace DecodePipeline

open FileTree

variable {t : FileTree} {cwd : Location} {sources : List SourceEntry} {id : String}

namespace Decoder

/-- The output directory of an item lies below the output root, and the decoder keeps to it. -/
structure Confined (d : Decoder) (id : String) : Prop where
  /-- It is written as the output root and one name. -/
  inside : Path.components (d.itemDirectory id) = Path.components d.outputRoot ++ [.normal id]
  /-- It is below where the output root leads, unless there is a link of that name. -/
  leads : ∀ (t : FileTree) (cwd r l : Location), t.directory cwd d.outputRoot = .ok r →
    t.directory cwd (d.itemDirectory id) = .ok l →
      l = r ++ [id] ∨ ∃ target, t.node? (r ++ [id]) = some (.link target)
  /-- Making it adds directories; if the output root is there, none but this one. -/
  makes : ∀ (t : FileTree) (cwd : Location), t.Sound →
    let made := (t.createDirectories cwd (d.itemDirectory id)).1
    Grown t made ∧ ∀ r, t.directory cwd d.outputRoot = .ok r →
      ∀ x, x ≠ r ++ [id] → made.node? x = t.node? x
  /-- Clearing it removes frames of the item in it. -/
  clears : ∀ (t : FileTree) (cwd : Location), t.Sound →
    Pruned (fun x n => ∃ l, t.directory cwd (d.itemDirectory id) = .ok l ∧ IsFrame id l x n) t
      (t.clearFrames cwd id (d.itemDirectory id)).1
  /-- Cleaning up removes what is below it. The empty pattern stands for the directory itself; where that
  is a link, the link is removed. -/
  cleans : (∀ pattern ∈ d.cleanupPatterns, '/' ∉ pattern.toList) →
    ∀ (t : FileTree) (cwd : Location), t.Sound →
      Pruned (fun x n =>
          (∃ l, t.directory cwd (d.itemDirectory id) = .ok l ∧ l <+: x ∧ x ≠ l) ∨
          "" ∈ d.cleanupPatterns ∧ n.isLink ∧ t.find cwd false (d.itemDirectory id) = .ok (x, n)) t
        (d.collect cwd id t).1

theorem confined_of_legal (d : Decoder) (legal : LegalName id) : Confined d id where
  inside := Path.components_join_name legal.filled legal.plain legal.notDot legal.notDots _
  leads t cwd r l root own := by
    have left : d.outputRoot ≠ "" := (directory_iff.mp root).1.filled
    obtain ⟨above, n, above_, at_, ⟨_, rfl⟩ | link⟩ := directory_join left legal own
    all_goals cases root.symm.trans above_
    · exact .inl rfl
    · cases n with
      | link target => exact .inr ⟨target, at_⟩
      | directory | file | sink | zeros | stream | tool => cases link
  makes t cwd sound := by
    refine ⟨createDirectories_grown sound cwd _, fun r root x other => ?_⟩
    have left : d.outputRoot ≠ "" := (directory_iff.mp root).1.filled
    obtain same | new :=
      createDirectories_within left legal.toPlainName root legal.notDot legal.notDots
    · rw [itemDirectory, same]
    · rw [itemDirectory, new, node?_put t (by simp), if_neg other]
  clears t cwd sound := clearFrames_pruned sound (Path.join_ne_empty legal.filled _) cwd
  cleans slashFree t cwd sound := by
    have pruned := collect_pruned d sound legal.toPlainName legal.notDot slashFree cwd
    refine pruned.mono fun x n swept => ?_
    cases swept with
    | matched leads => exact .inl ⟨_, leads, List.prefix_append _ _, by simp⟩
    | nested leads _ _ under other => exact .inl ⟨_, leads, under, other⟩
    | itself mem link found => exact .inr ⟨mem, link, found⟩

/-- Dots are no names: they stand for the output root itself or the directory above it. -/
theorem ordinary_of_confined {d : Decoder} (confined : Confined d id) : id ≠ "." ∧ id ≠ ".." := by
  have inside := confined.inside
  constructor
  all_goals
    rintro rfl
    by_cases left : d.outputRoot = ""
    · rw [itemDirectory, left] at inside
      revert inside
      decide
    · rw [itemDirectory, Path.components_join left (by decide)] at inside
      exact absurd (List.append_cancel_left inside) (by decide)

/-- The output directories of the sources in a directory are distinct, and confined except for ids that
are a dot or two: those of files named by dots and the extension alone. -/
theorem itemDirectory_confined_iff (d : Decoder) (catalog : SourceDirectory) (sound : t.Sound)
    (listed : catalog.list t cwd = .ok sources) :
    (∀ s ∈ sources, Confined d s.id ↔ s.id ≠ "." ∧ s.id ≠ "..") ∧
    (∀ s ∈ sources, s.id = "." ∨ s.id = ".." ↔ catalog.extension ≠ "" ∧
      ∃ name ext, LegalName name ∧ s.path = Path.join catalog.root name ∧
        SourceDirectory.sameExtension ext catalog.extension ∧
          (name = ".." ++ ext ∨ name = "..." ++ ext)) ∧
    ∀ s ∈ sources, ∀ s' ∈ sources,
      Path.components (d.itemDirectory s.id) = Path.components (d.itemDirectory s'.id) →
        s.id = s'.id := by
  refine ⟨fun s mem => ?_, fun s mem => ?_, fun s mem s' mem' same => ?_⟩
  all_goals obtain ⟨name, legal, found, path⟩ := catalog.file_of_mem sound listed mem
  · refine ⟨ordinary_of_confined, fun ⟨notDot, notDots⟩ => ?_⟩
    exact confined_of_legal d (SourceDirectory.id_legal legal found notDot notDots)
  · rw [SourceDirectory.id_dots_iff legal found]
    refine and_congr_right fun _ => ⟨?_, ?_⟩
    · rintro ⟨ext, same, eq⟩
      exact ⟨name, ext, legal, path, same, eq⟩
    · rintro ⟨name', ext, legal', path', same, eq⟩
      obtain rfl := Path.join_injective legal.plain legal'.plain (path.symm.trans path')
      exact ⟨ext, same, eq⟩
  · obtain ⟨name', legal', found', _⟩ := catalog.file_of_mem sound listed mem'
    exact Path.components_join_injective (SourceDirectory.id_filled legal found)
      (SourceDirectory.id_plain legal found) (SourceDirectory.id_filled legal' found')
      (SourceDirectory.id_plain legal' found') same

theorem itemDirectory_confined_iff_two_sources :
    let t : FileTree := ⟨[(["in"], .directory), (["in", "...bin"], .file [] false),
      (["in", "a.bin"], .file [] false)]⟩
    let d : Decoder := { program := "/decoder", outputRoot := "/out" }
    t.Sound ∧
      SourceDirectory.list t [] ⟨"/in", "bin"⟩ = .ok [⟨"..", "/in/...bin"⟩, ⟨"a", "/in/a.bin"⟩] ∧
        ¬Confined d ".." ∧ Confined d "a" := by
  intro t d
  have sound : t.Sound := by decide +kernel
  have listed : SourceDirectory.list t [] ⟨"/in", "bin"⟩ =
      .ok [⟨"..", "/in/...bin"⟩, ⟨"a", "/in/a.bin"⟩] := by decide +kernel
  obtain ⟨confined, _⟩ := itemDirectory_confined_iff d ⟨"/in", "bin"⟩ sound listed
  refine ⟨sound, listed, fun dots => ?_, ?_⟩
  · exact ((confined _ List.mem_cons_self).mp dots).2 rfl
  · exact (confined ⟨"a", "/in/a.bin"⟩ (by simp)).mpr ⟨by decide, by decide⟩

/-- For a file named by dots and the extension alone, the directory above the output root is taken for the
output directory, and cleaning up removes files there. -/
theorem removes_above_output_root :
    let t : FileTree := ⟨[([".._dec_0000.ply"], .file [] false), (["in"], .directory),
      (["in", "...bin"], .file [] false), (["notes.txt"], .file [] false), (["out"], .directory)]⟩
    let d : Decoder :=
      { program := "/decoder", outputRoot := "/out", cleanupPatterns := ["notes.txt"] }
    t.Sound ∧ SourceDirectory.list t [] ⟨"/in", "bin"⟩ = .ok [⟨"..", "/in/...bin"⟩] ∧
      Path.components (d.itemDirectory "..") = Path.components d.outputRoot ++ [.parent] ∧
        t.node? ["notes.txt"] = some (.file [] false) ∧
          (d.collect [] ".." t).1.node? ["notes.txt"] = none := by
  decide +kernel

end Decoder

end DecodePipeline
