import DecodePipeline.Proofs.FileTree.Making

/-!
Writing at the end of a file. What is written is kept where the path leads, behind what was there; nothing
else changes, and the path goes on leading there.
-/

namespace DecodePipeline

/-- What becomes of a place at whose end bytes are written: a file holds them behind its content, a new one
holds nothing else, and any other node keeps nothing. -/
def Node.extended (bytes : List UInt8) : Option Node → Node
  | none => .file bytes false
  | some (.file content executable) => .file (content ++ bytes) executable
  | some n => n

theorem Node.extended_extended (bytes bytes' : List UInt8) (n : Option Node) :
    Node.extended bytes' (some (Node.extended bytes n)) = Node.extended (bytes ++ bytes') n := by
  cases n with
  | none => rfl
  | some n => cases n <;> simp [Node.extended]

/-- Directories and links are kept as they are. -/
theorem Node.extended_of_way {n : Node} (bytes : List UInt8) (way : n = .directory ∨ n.isLink) :
    Node.extended bytes (some n) = n := by
  cases n <;> first | rfl | simp [Node.isLink] at way

theorem Node.eq_of_extended_isLink {bytes : List UInt8} {n : Option Node}
    (link : (Node.extended bytes n).isLink) : n = some (Node.extended bytes n) := by
  cases n with
  | none => cases link
  | some n => cases n <;> first | rfl | cases link

namespace FileTree

variable {t t' : FileTree} {cwd l l' : Location} {path : String} {n : Node}
  {bytes bytes' : List UInt8}

/-- A node that is no directory may be replaced. -/
theorem Sound.replace (sound : t.Sound) (at_ : t.node? l = some n) (leaf : n ≠ .directory)
    (m : Node) : (t.put l m).Sound := by
  have deep : l ≠ [] := by
    rintro rfl
    exact leaf (Option.some.inj at_).symm
  have there : t.entries.any (·.1 = l) = true :=
    List.any_eq_true.mpr ⟨_, mem_of_node? at_ deep, by simp⟩
  have entries : (t.put l m).entries = t.entries.map fun e => if e.1 = l then (l, m) else e := by
    simp only [FileTree.put, there, if_true]
  have keeps (e : Location × Node) : (if e.1 = l then (l, m) else e).1 = e.1 := by
    split <;> simp_all
  constructor
  · rw [entries, List.map_map]
    simpa only [Function.comp_def, keeps] using sound.distinct
  · intro e mem
    rw [entries] at mem
    obtain ⟨e', own, rfl⟩ := List.mem_map.mp mem
    rw [keeps]
    exact sound.legal e' own
  · intro e mem
    rw [entries] at mem
    obtain ⟨e', own, rfl⟩ := List.mem_map.mp mem
    obtain ⟨inner, above⟩ := sound.below e' own
    rw [keeps, node?_put t deep]
    refine ⟨inner, ?_⟩
    split_ifs with same
    · rw [same, at_] at above
      exact absurd (Option.some.inj above) leaf
    · exact above

/-! ## Opening and writing -/

/-- What a path leads to that is opened for writing: a place that holds no directory, and a new file where
there was nothing. -/
structure Opened (t t' : FileTree) (cwd : Location) (path : String) (l : Location) (n : Node) :
    Prop where
  ends : t.resolve cwd true path = .ok ⟨l, t.node? l⟩
  sound : t'.Sound
  leaf : n ≠ .directory
  holds : n = Node.extended [] (t.node? l)
  node?_eq : ∀ x, t'.node? x = if x = l then some n else t.node? x

theorem opened_of_missing (sound : t.Sound) (ends : t.resolve cwd true path = .ok ⟨l, none⟩) :
    Opened t (t.put l (.file [] false)) cwd path l (.file [] false) := by
  have free : none = t.node? l := node?_of_resolve ends
  have passable := passable_of_resolve ends
  have walked := ends
  rw [resolve_of_passable passable] at walked
  obtain ⟨above, name, rfl, inside, legal⟩ := free_of_walk sound (fun _ => plain_of_mem_pieces)
    (fun none => absurd none (pieces_ne_nil passable.filled)) walked
  exact ⟨free ▸ ends, sound.put free.symm inside legal _, by simp, free ▸ rfl, node?_put t (by simp) _⟩

theorem opened_of_found (sound : t.Sound) (ends : t.resolve cwd true path = .ok ⟨l, some n⟩)
    (leaf : n ≠ .directory) : Opened t t cwd path l n := by
  have at_ : some n = t.node? l := node?_of_resolve ends
  have holds : n = Node.extended [] (some n) := by cases n <;> simp [Node.extended]
  refine ⟨at_ ▸ ends, sound, leaf, at_ ▸ holds, fun x => ?_⟩
  split_ifs with same
  · rw [same, at_]
  · rfl

theorem opened_of_openForWriting (sound : t.Sound)
    (opened : t.openForWriting cwd path = .ok (t', l, n)) : Opened t t' cwd path l n := by
  simp only [openForWriting] at opened
  by_cases slash : path.toList.getLast? = some '/'
  · cases ends : t.resolve cwd true (withoutFinalSlashes path) with
    | error e => simp [ends, bind, Except.bind] at opened
    | ok s => simp [ends, slash, bind, Except.bind] at opened
  · rw [withoutFinalSlashes_eq_self slash] at opened
    cases ends : t.resolve cwd true path with
    | error e => simp [ends, bind, Except.bind] at opened
    | ok s =>
        obtain ⟨x, m⟩ := s
        simp only [ends, slash, bind, Except.bind, pure, Except.pure, if_false] at opened
        cases m with
        | none =>
            cases opened
            exact opened_of_missing sound ends
        | some m => cases m <;> cases opened <;> exact opened_of_found sound ends (by simp)

theorem extend_node? (at_ : t.node? l = some n) (leaf : n ≠ .directory) (x : Location) :
    (t.extend l bytes).node? x =
      if x = l then some (Node.extended bytes (some n)) else t.node? x := by
  have deep : l ≠ [] := by
    rintro rfl
    exact leaf (Option.some.inj at_).symm
  have same : t.node? x = if x = l then some n else t.node? x := by
    split_ifs with eq
    · rw [eq, at_]
    · rfl
  cases n with
  | file content executable => simp [extend, at_, node?_put t deep, Node.extended]
  | directory | link | sink | zeros | stream | tool => simpa [extend, at_, Node.extended] using same

theorem Sound.extend (sound : t.Sound) (l : Location) (bytes : List UInt8) :
    (t.extend l bytes).Sound := by
  simp only [FileTree.extend]
  split
  · next at_ => exact sound.replace at_ (by simp) _
  · exact sound

/-! ## What was written -/

/-- What it comes to that bytes are written at the end of what a path leads to. -/
structure Written (t t' : FileTree) (cwd : Location) (path : String) (l : Location)
    (bytes : List UInt8) : Prop where
  sound : t'.Sound
  /-- The path leads to the place, and did so before if it led anywhere. -/
  leads : ∃ n, t'.find cwd true path = .ok (l, n)
  led : ∀ x n, t.find cwd true path = .ok (x, n) → x = l
  leaf : t.node? l ≠ some .directory
  node : t'.node? l = some (Node.extended bytes (t.node? l))
  /-- Nothing else changes, but that directories may be new. -/
  others : ∀ x, x ≠ l → t'.node? x = t.node? x ∨ t.node? x = none ∧ t'.node? x = some .directory

theorem written_of_append (sound : t.Sound) (appended : t.append cwd path bytes = .ok t') :
    ∃ l, Written t t' cwd path l bytes := by
  simp only [append] at appended
  cases eq : t.openForWriting cwd path with
  | error e => simp [eq, bind, Except.bind] at appended
  | ok found =>
      obtain ⟨t₁, l, n⟩ := found
      simp only [eq, bind, Except.bind, pure, Except.pure, Except.ok.injEq] at appended
      subst appended
      have opened := opened_of_openForWriting sound eq
      have inside : t₁.node? l = some n := by simp [opened.node?_eq]
      have node (x : Location) : (t₁.extend l bytes).node? x =
          if x = l then some (Node.extended bytes (t.node? l)) else t.node? x := by
        rw [extend_node? inside opened.leaf, opened.node?_eq, opened.holds, Node.extended_extended]
        split <;> rfl
      have at_ : (t₁.extend l bytes).node? l = some (Node.extended bytes (t.node? l)) := by
        simp [node]
      have keeps : KeepsWays t (t₁.extend l bytes) := by
        intro x m own way
        rw [node]
        split_ifs with same
        · rw [← same, own, Node.extended_of_way bytes way]
        · exact own
      have ends := resolve_keeps keeps (fun m own link => ?_) opened.ends
      · refine ⟨l, opened.sound.extend l bytes, ⟨_, find_eq_ok.mpr (at_ ▸ ends)⟩, ?_, ?_, at_, ?_⟩
        · intro x m found
          have ends' := (find_eq_ok.mp found).symm.trans opened.ends
          simp only [Except.ok.injEq, Spot.mk.injEq] at ends'
          exact ends'.1
        · intro directory
          exact opened.leaf (by rw [opened.holds, directory]; rfl)
        · intro x other
          exact .inl (by simp [node, other])
      · obtain rfl := Option.some.inj (at_.symm.trans own)
        exact Node.eq_of_extended_isLink link

theorem Written.after_grown {t₁ : FileTree} (grown : Grown t t₁)
    (written : Written t₁ t' cwd path l bytes) : Written t t' cwd path l bytes := by
  have same : t₁.node? l = t.node? l :=
    (grown.each l).resolve_right fun ⟨_, new⟩ => written.leaf new
  refine ⟨written.sound, written.leads, fun x n found => ?_, same ▸ written.leaf, same ▸ written.node,
    fun x other => ?_⟩
  · exact written.led x n (find_mono grown.sub found)
  · obtain kept | ⟨free, new⟩ := written.others x other
    · rw [kept]
      exact grown.each x
    · obtain kept | ⟨_, new'⟩ := grown.each x
      · exact .inr ⟨kept ▸ free, new⟩
      · rw [new'] at free
        contradiction

/-- What is written next comes behind it, in the same place. -/
theorem Written.trans {t₁ : FileTree} (first : Written t t₁ cwd path l bytes)
    (second : Written t₁ t' cwd path l' bytes') : Written t t' cwd path l (bytes ++ bytes') := by
  obtain ⟨n, leads⟩ := first.leads
  obtain rfl := second.led l n leads
  refine ⟨second.sound, second.leads, first.led, first.leaf, ?_, fun x other => ?_⟩
  · rw [second.node, first.node, Node.extended_extended]
  · obtain same' | ⟨free', new'⟩ := second.others x other
    · rw [same']
      exact first.others x other
    · obtain same | ⟨_, new⟩ := first.others x other
      · exact .inr ⟨same ▸ free', new'⟩
      · rw [new] at free'
        contradiction

end FileTree

end DecodePipeline
