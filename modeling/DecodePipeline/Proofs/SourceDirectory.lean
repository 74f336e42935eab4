import DecodePipeline.Proofs.FileTree.Sound
import DecodePipeline.Proofs.Path
import DecodePipeline.SourceDirectory

/-!
What a directory lists: each source with the file it comes from. Its id is a name between slashes, but it
may be one that stands for a directory.
-/

namespace DecodePipeline

namespace SourceDirectory

variable {d : SourceDirectory} {t : FileTree} {cwd : Location} {sources : List SourceEntry}
  {s s' : SourceEntry} {name id : String} {e : String × Node} {listing : List (String × Node)}

/-- The id of a file is its name, or what is left of it without the extension. -/
theorem id?_eq_some (found : d.id? name = some id) :
    d.extension = "" ∧ name = id ∨
      d.extension ≠ "" ∧ id ≠ "" ∧
        ∃ ext, name = id ++ "." ++ ext ∧ '.' ∉ ext.toList ∧ sameExtension ext d.extension := by
  simp only [id?, String.isEmpty_iff] at found
  split_ifs at found with whole
  · exact .inl ⟨whole, Option.some.inj found⟩
  · split at found
    · next stem ext eq =>
        split_ifs at found with same
        obtain rfl := Option.some.inj found
        obtain ⟨parts, filled, last⟩ := Path.splitExtension_eq_some eq
        exact .inr ⟨whole, filled, ext, parts, last, same⟩
    · contradiction

theorem source?_eq_some (found : d.source? e = some s) :
    e.2.isFile ∧ d.id? e.1 = some s.id ∧ s.path = Path.join d.root e.1 := by
  simp only [source?] at found
  split_ifs at found with file
  · obtain ⟨id, named, rfl⟩ := Option.map_eq_some_iff.mp found
    exact ⟨file, named, rfl⟩

theorem sameExtension_iff {a b : String} :
    sameExtension a b ↔ a.toList.map Char.toLower = b.toList.map Char.toLower := by
  simp [sameExtension]

theorem id_filled (legal : LegalName name) (found : d.id? name = some id) : id ≠ "" := by
  obtain ⟨_, rfl⟩ | ⟨_, filled, _⟩ := id?_eq_some found
  · exact legal.filled
  · exact filled

theorem id_plain (legal : LegalName name) (found : d.id? name = some id) : '/' ∉ id.toList := by
  obtain ⟨_, rfl⟩ | ⟨_, _, ext, rfl, _⟩ := id?_eq_some found
  · exact legal.plain
  · exact fun slash => legal.plain (by simp [slash])

/-- An id that is not a dot or two is a legal name itself. -/
theorem id_legal (legal : LegalName name) (found : d.id? name = some id) (notDot : id ≠ ".")
    (notDots : id ≠ "..") : LegalName id := by
  refine ⟨⟨id_filled legal found, id_plain legal found⟩, notDot, notDots, ?_⟩
  have short := legal.short
  obtain ⟨_, rfl⟩ | ⟨_, _, ext, rfl, _⟩ := id?_eq_some found
  · exact short
  · simp only [String.utf8ByteSize_append] at short
    omega

/-- An id stands for a directory if its file's name is nothing but dots in front of the extension. -/
theorem id_dots_iff (legal : LegalName name) (found : d.id? name = some id) :
    id = "." ∨ id = ".." ↔ d.extension ≠ "" ∧
      ∃ ext, sameExtension ext d.extension ∧ (name = ".." ++ ext ∨ name = "..." ++ ext) := by
  obtain ⟨whole, rfl⟩ | ⟨some, _, ext, rfl, last, same⟩ := id?_eq_some found
  · exact iff_of_false (by simp [legal.notDot, legal.notDots]) fun h => h.1 whole
  · constructor
    · rintro (rfl | rfl)
      · exact ⟨some, ext, same, .inl rfl⟩
      · exact ⟨some, ext, same, .inr rfl⟩
    · rintro ⟨_, ext', same', eq⟩
      have length : ext.toList.length = ext'.toList.length := by
        have folded := (sameExtension_iff.mp same).trans (sameExtension_iff.mp same').symm
        simpa using congrArg List.length folded
      obtain eq | eq := eq
      all_goals
        have eq := congrArg String.toList eq
        simp only [String.toList_append] at eq
        have front := (List.append_inj' eq length).1
      · have front : id.toList ++ ['.'] = ['.'] ++ ['.'] := front
        exact .inl (String.toList_injective (List.append_cancel_right front))
      · have front : id.toList ++ ['.'] = ['.', '.'] ++ ['.'] := front
        exact .inr (String.toList_injective (List.append_cancel_right front))

theorem list_eq_ok : d.list t cwd = .ok sources ↔
    ∃ listing, t.list cwd d.root = .ok listing ∧ listing.filterMap d.source? = sources := by
  simp only [list]
  cases t.list cwd d.root <;> simp

/-- Each source comes from a file of the directory. -/
theorem file_of_mem (sound : t.Sound) (listed : d.list t cwd = .ok sources) (mem : s ∈ sources) :
    ∃ name, LegalName name ∧ d.id? name = some s.id ∧ s.path = Path.join d.root name := by
  obtain ⟨listing, lists, rfl⟩ := list_eq_ok.mp listed
  obtain ⟨e, inside, found⟩ := List.mem_filterMap.mp mem
  obtain ⟨_, named, path⟩ := source?_eq_some found
  exact ⟨e.1, sound.legal_of_list lists inside, named, path⟩

end SourceDirectory

end DecodePipeline
