import DecodePipeline.Proofs.Decoder.Cleanup
import DecodePipeline.Proofs.Validation

/-!
What a decoder reports as decoded against the check before it is shown. The two agree but for a number of
frames that is to be zero, indices that are spelled in two ways, and frames that cleaning up has removed.
-/

namespace DecodePipeline

namespace Decoder

open FileTree Glob Validation

variable {d : Decoder} {effect : Effect} {limit : Span} {cwd l : Location} {id name : String}
  {t : FileTree} {files : List String}

/-! ## Attempts that end well -/

/-- What is decoded is what is collected behind the program. -/
theorem decodeBy_eq_ok (decoded : (d.decodeBy effect limit cwd id t).result = .ok files) :
    d.collect cwd id (effect (d.prepare cwd id t).1).tree =
      ((d.decodeBy effect limit cwd id t).tree, .ok files) := by
  unfold decodeBy at decoded ⊢
  rcases eq : d.prepare cwd id t with ⟨t', made | made⟩
  · simp only [eq] at decoded
    cases decoded
  · simp only [eq] at decoded ⊢
    cases ended : (effect t').result.bind (Outcome.toResult limit) with
    | error fault =>
        simp only [ended] at decoded
        cases decoded
    | ok _ =>
        simp only [ended] at decoded ⊢
        exact Prod.ext rfl decoded

/-! ## Frames and the check -/

/-- Where frames are asked for, those that are as many as asked for are not none. -/
theorem files_ne_nil (asked : d.expectedFrames ≠ some 0)
    (counted : Frame.countMatches d.expectedFrames files.length) : files ≠ [] := by
  rintro rfl
  cases expected : d.expectedFrames with
  | none => simp [Frame.countMatches, expected] at counted
  | some n =>
      simp only [Frame.countMatches, expected, List.length_nil, beq_iff_eq] at counted
      exact asked (counted ▸ expected)

/-- The frames of a directory are well formed if no index is spelled twice and each is there. -/
theorem wellFormed_iff_of_framePaths {dir : String} {set : ArtifactSet} {isThere : String → Bool}
    (sound : t.Sound) (left : dir ≠ "") (found : t.framePaths cwd set.itemId dir = .ok set.files)
    (asked : d.expectedFrames ≠ some 0)
    (counted : Frame.countMatches d.expectedFrames set.files.length) :
    WellFormed d.expectedFrames isThere set ↔
      (set.files.map (Frame.index? set.itemId)).Nodup ∧ ∀ file ∈ set.files, isThere file := by
  obtain ⟨indices, named, sorted⟩ := framePaths_indices sound left found
  rw [named, List.nodup_map_iff (Option.some_injective _)]
  constructor
  · rintro ⟨_, _, ⟨indices', named', rising⟩, there⟩
    have same : indices = indices' :=
      List.map_injective_iff.mpr (Option.some_injective _) (named.symm.trans named')
    exact ⟨same ▸ rising.imp fun less => Nat.ne_of_lt less, there⟩
  · rintro ⟨distinct, there⟩
    have rising : indices.Pairwise (· < ·) := sorted.imp₂ (fun _ _ => lt_of_le_of_ne) distinct
    exact ⟨files_ne_nil asked counted, counted, ⟨indices, named, rising⟩, there⟩

/-- A regular file is found in a pruned tree if it is not of the kind that is gone. -/
theorem exists_of_pruned {gone : Location → Node → Prop} {t' : FileTree} {dir : String} {n : Node}
    (pruned : Pruned gone t t') (left : dir ≠ "") (legal : LegalName name)
    (passable : Passable (Path.join dir name)) (leads : t'.directory cwd dir = .ok l)
    (at_ : t.node? (l ++ [name]) = some n) (direct : n.isLink = false)
    (stays : ¬gone (l ++ [name]) n) : t'.exists? cwd (Path.join dir name) := by
  obtain same | ⟨m, own, _, taken⟩ := pruned.each (l ++ [name])
  · have found : t'.find cwd true (Path.join dir name) = .ok (l ++ [name], n) :=
      find_join_direct left legal passable leads (same.trans at_) direct
    simp [exists?, stat, found, Except.map, Except.isOk, Except.toBool]
  · cases at_.symm.trans own
    exact absurd taken stays

/-- Frames that no pattern stands for are still there behind the cleaning up, as far as their directory is
and their paths can be asked for. -/
theorem exists_of_unmatched (sound : t.Sound) (plain : PlainName id) (other : id ≠ ".")
    (slashFree : ∀ pattern ∈ d.cleanupPatterns, '/' ∉ pattern.toList)
    {t' : FileTree} (collected : d.collect cwd id t = (t', .ok files))
    (leads : t'.directory cwd (d.itemDirectory id) = .ok l) {file : String} (mem : file ∈ files)
    (passable : Passable file)
    (unmatched : ∀ pattern ∈ d.cleanupPatterns, ∀ name,
      file = Path.join (d.itemDirectory id) name → ¬Matches pattern name) :
    t'.exists? cwd file := by
  have left := Path.join_ne_empty plain.filled d.outputRoot
  have pruned := d.collect_pruned sound plain other slashFree cwd
  rw [collected] at pruned
  obtain ⟨found, _⟩ := collect_eq_ok collected
  obtain ⟨above, name, n, own, at_, regular, legal, _, rfl⟩ := mem_framePaths sound left found mem
  cases own.symm.trans (pruned.directory leads)
  have direct : n.isLink = false := by cases n <;> first | rfl | cases regular
  refine exists_of_pruned pruned left legal passable leads at_ direct fun swept => ?_
  generalize place : l ++ [name] = x at swept
  cases swept with
  | matched _ mem accepts =>
      obtain ⟨_, same⟩ := List.append_inj' place rfl
      cases same
      exact unmatched _ mem name rfl accepts
  | nested _ _ link | itself _ link => simp [direct] at link

/-- Where frames are asked for at all, what was decoded passes the check if no index is spelled twice and
every frame is still there; and it is if no pattern stands for it and its path leads anywhere. -/
theorem decoded_passes_iff (d : Decoder) (item : WorkItem) (plain : PlainName item.id)
    (asked : d.expectedFrames ≠ some 0) (sound : (effect (d.prepare cwd item.id t).1).tree.Sound)
    (decoded : (d.decodeBy effect limit cwd item.id t).result = .ok files) (time : Instant) :
    let left := (d.decodeBy effect limit cwd item.id t).tree
    (check d.expectedFrames (left.exists? cwd) (.ofItem item files time) = .ok () ↔
      (files.map (Frame.index? item.id)).Nodup ∧ ∀ file ∈ files, left.exists? cwd file) ∧
    (item.id ≠ "." → (∀ pattern ∈ d.cleanupPatterns, '/' ∉ pattern.toList) →
      ∀ l, left.directory cwd (d.itemDirectory item.id) = .ok l →
        ∀ file ∈ files, Passable file →
          (∀ pattern ∈ d.cleanupPatterns, ∀ name,
            file = Path.join (d.itemDirectory item.id) name → ¬Matches pattern name) →
          left.exists? cwd file) := by
  intro left
  have collected := decodeBy_eq_ok decoded
  obtain ⟨found, counted⟩ := collect_eq_ok collected
  constructor
  · exact check_eq_ok_iff.trans (wellFormed_iff_of_framePaths sound
      (Path.join_ne_empty plain.filled d.outputRoot) found asked counted)
  · intro other slashFree l leads file mem passable unmatched
    exact exists_of_unmatched sound plain other slashFree collected leads mem passable unmatched

/-! ## Attempts whose frames do not pass -/

/-- A program that leaves empty files in a directory and ends well. -/
def leaving (l : Location) (names : List String) : Effect := fun t =>
  ⟨names.foldl (fun t name => t.put (l ++ [name]) (.file [] false)) t, 0,
    .ok ⟨some (.exited 0), ""⟩⟩

/-- What the check says of what a decoder makes of files that a program leaves. -/
def verdict (d : Decoder) (names : List String) : Except Fault (Except Fault Unit) :=
  let attempt := d.decodeBy (leaving ["out", "a"] names) ⟨1⟩ [] "a" ⟨[]⟩
  attempt.result.map fun files =>
    check d.expectedFrames (attempt.tree.exists? []) ⟨"a", files, Instant.epoch, 1⟩

theorem decoded_passes_iff_one_frame :
    let d : Decoder := { program := "/decoder", outputRoot := "/out", cleanupPatterns := ["*.txt"] }
    let attempt := d.decodeBy (leaving ["out", "a"] ["a_dec_0000.ply"]) ⟨1⟩ [] "a" ⟨[]⟩
    attempt.result = .ok ["/out/a/a_dec_0000.ply"] ∧
      check d.expectedFrames (attempt.tree.exists? [])
        (.ofItem (.new "a" "/in/a.bin" Instant.epoch) ["/out/a/a_dec_0000.ply"] Instant.epoch) =
          .ok () := by
  intro d attempt
  have decoded : attempt.result = .ok ["/out/a/a_dec_0000.ply"] := by decide +kernel
  have passes := decoded_passes_iff d (.new "a" "/in/a.bin" Instant.epoch) ⟨by decide, by decide⟩
    (by decide) (by decide +kernel) decoded Instant.epoch
  exact ⟨decoded, passes.1.mpr ⟨by decide +kernel, by decide +kernel⟩⟩

/-- Frames with one index come by name, and so their indices do not rise. -/
theorem verdict_spelled_twice :
    verdict { program := "/decoder", outputRoot := "/out" } ["a_dec_00001.ply", "a_dec_0001.ply"] =
      .ok (.error (.invalid "a" "frames out of order at /out/a/a_dec_0001.ply")) := by
  let d : Decoder := { program := "/decoder", outputRoot := "/out" }
  let made : FileTree := ⟨[(["out"], .directory), (["out", "a"], .directory)]⟩
  let effect := leaving ["out", "a"] ["a_dec_00001.ply", "a_dec_0001.ply"]
  let frames := ["/out/a/a_dec_00001.ply", "/out/a/a_dec_0001.ply"]
  have prepared : d.prepare [] "a" ⟨[]⟩ = (made, .ok ()) := by decide +kernel
  have found : (effect made).tree.framePaths [] "a" "/out/a" = .ok frames := by
    have there : (effect made).tree.tryExists [] "/out/a" = .ok true := by decide +kernel
    have listed : (effect made).tree.list [] "/out/a" =
        .ok [("a_dec_00001.ply", .file [] false), ("a_dec_0001.ply", .file [] false)] := by
      decide +kernel
    have sorted : FrameFile.ofEntries "a"
        [("a_dec_00001.ply", .file [] false), ("a_dec_0001.ply", .file [] false)] =
          [⟨1, "a_dec_00001.ply"⟩, ⟨1, "a_dec_0001.ply"⟩] :=
      (List.mergeSort_of_pairwise (by decide +kernel)).trans (by decide +kernel)
    simp only [framePaths, FileTree.frames, there, listed, sorted, bind, Except.bind, pure,
      Except.pure, if_true]
    decide +kernel
  have collected : d.collect [] "a" (effect made).tree = ((effect made).tree, .ok frames) := by
    have dir : d.itemDirectory "a" = "/out/a" := by decide +kernel
    unfold collect
    simp only [dir, found]
    rfl
  have decoded : d.decodeBy effect ⟨1⟩ [] "a" ⟨[]⟩ = ⟨(effect made).tree, 0, .ok frames⟩ := by
    have ended : (effect made).result.bind (Outcome.toResult ⟨1⟩) = .ok () := rfl
    unfold decodeBy
    simp only [prepared, ended, collected]
    rfl
  have checked : verdict d ["a_dec_00001.ply", "a_dec_0001.ply"] =
      .ok (check none ((effect made).tree.exists? []) ⟨"a", frames, Instant.epoch, 1⟩) := by
    rw [verdict, decoded]
    rfl
  rw [checked]
  decide +kernel

/-- Frames that were decoded and yet do not pass: none where none were asked for, an index in two
spellings, and one that cleaning up removes. -/
theorem decoded_yet_rejected :
    let d : Decoder := { program := "/decoder", outputRoot := "/out" }
    verdict { d with expectedFrames := some 0 } [] = .ok (.error (.invalid "a" "no frame files")) ∧
    verdict d ["a_dec_00001.ply", "a_dec_0001.ply"] =
      .ok (.error (.invalid "a" "frames out of order at /out/a/a_dec_0001.ply")) ∧
    verdict { d with cleanupPatterns := ["*.ply"] } ["a_dec_0001.ply"] =
      .ok (.error (.invalid "a" "missing file: /out/a/a_dec_0001.ply")) :=
  ⟨by decide +kernel, verdict_spelled_twice, by decide +kernel⟩

end Decoder

end DecodePipeline
