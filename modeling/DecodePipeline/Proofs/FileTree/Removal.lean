import DecodePipeline.Proofs.FileTree.Resolve

/-!
Removing what a path names. Of a sound tree only entries that are no directories are removed, and each
where the directory in front of its name leads.
-/

namespace DecodePipeline.FileTree

variable {t t' t'' : FileTree} {cwd l x : Location} {path name : String} {n : Node}
  {gone gone' : Location → Node → Prop}

/-- Below a directory a name finds what is an entry there, or else a directory. -/
theorem find_join_iff (sound : t.Sound) (left : path ≠ "") (plain : PlainName name)
    (leaf : n ≠ .directory) :
    t.find cwd false (Path.join path name) = .ok (x, n) ↔
      ∃ l, t.directory cwd path = .ok l ∧ x = l ++ [name] ∧ t.node? x = some n ∧
        OrdinaryName name ∧ Passable (Path.join path name) := by
  rw [find_eq_ok]
  cases resolve_join t cwd left plain with
  | nowhere never fails =>
      obtain ⟨e, fails⟩ := fails false
      refine iff_of_false (by simp [fails]) ?_
      rintro ⟨l, leads, _, _, _, passable⟩
      exact never passable l leads
  | within l budget leads passable resolves =>
      have inside := node?_of_directory leads
      simp only [resolves]
      have entry (ordinary : OrdinaryName name) {m : Node}
          (at_ : t.node? (l ++ [name]) = some m) :
          (Except.ok ⟨l ++ [name], some m⟩ : Except SystemError Spot) = .ok ⟨x, some n⟩ ↔
            ∃ l, t.directory cwd path = .ok l ∧ x = l ++ [name] ∧ t.node? x = some n ∧
              OrdinaryName name ∧ Passable (Path.join path name) := by
        constructor
        · rintro ⟨⟩
          exact ⟨l, leads, rfl, at_, ordinary, passable⟩
        · rintro ⟨_, own, rfl, found, _⟩
          cases leads.symm.trans own
          cases at_.symm.trans found
          rfl
      cases t.meets l name with
      | dot eq =>
          subst eq
          rw [walk_dot inside, walk_nil, inside]
          refine iff_of_false (by simp [Ne.symm leaf]) ?_
          exact fun ⟨_, _, _, _, ordinary, _⟩ => ordinary.notDot rfl
      | up eq =>
          subst eq
          rw [walk_up inside, walk_nil, sound.dropLast inside]
          refine iff_of_false (by simp [Ne.symm leaf]) ?_
          exact fun ⟨_, _, _, _, ordinary, _⟩ => ordinary.notDots rfl
      | long other long =>
          rw [walk_long inside other long]
          refine iff_of_false (by simp) ?_
          exact fun ⟨_, _, _, _, ordinary, _⟩ => Nat.not_le.mpr long ordinary.short
      | missing ordinary at_ =>
          rw [walk_missing inside ordinary at_]
          refine iff_of_false (by simp) ?_
          rintro ⟨_, own, rfl, found, _⟩
          cases leads.symm.trans own
          cases at_.symm.trans found
      | link ordinary target at_ =>
          rw [walk_link inside ordinary at_]
          exact entry ordinary at_
      | node ordinary m at_ direct =>
          rw [walk_node inside ordinary at_ direct, walk_nil, at_]
          exact entry ordinary at_

/-- Below a directory that is there, only the entry of the name is found. -/
theorem eq_of_find_join (sound : t.Sound) (left : path ≠ "") (plain : PlainName name)
    (leads : t.directory cwd path = .ok l) (leaf : n ≠ .directory)
    (found : t.find cwd false (Path.join path name) = .ok (x, n)) :
    x = l ++ [name] ∧ t.node? (l ++ [name]) = some n := by
  obtain ⟨_, own, rfl, at_, _⟩ := (find_join_iff sound left plain leaf).mp found
  cases leads.symm.trans own
  exact ⟨rfl, at_⟩

theorem remove_eq_ok : t.remove cwd path = .ok t' ↔
    ∃ x n, t.find cwd false path = .ok (x, n) ∧ n ≠ .directory ∧ t.erase x = t' := by
  simp only [remove]
  cases t.find cwd false path with
  | error => simp [bind, Except.bind]
  | ok found =>
      obtain ⟨x, m⟩ := found
      cases m <;> simp [bind, Except.bind, pure, Except.pure]

/-! ## Trees with fewer entries -/

/-- Some entries of a tree are gone, each of a kind. -/
structure Pruned (gone : Location → Node → Prop) (t t' : FileTree) : Prop where
  sound : t'.Sound
  each : ∀ x, t'.node? x = t.node? x ∨ ∃ n, t.node? x = some n ∧ t'.node? x = none ∧ gone x n

theorem Pruned.refl (sound : t.Sound) : Pruned gone t t := ⟨sound, fun _ => .inl rfl⟩

theorem Pruned.sub (pruned : Pruned gone t t') (x : Location) (n : Node)
    (at_ : t'.node? x = some n) : t.node? x = some n := by
  obtain same | ⟨_, _, absent, _⟩ := pruned.each x
  · exact same ▸ at_
  · rw [absent] at at_
    contradiction

theorem Pruned.mono (pruned : Pruned gone t t') (kind : ∀ x n, gone x n → gone' x n) :
    Pruned gone' t t' where
  sound := pruned.sound
  each x := (pruned.each x).imp_right fun ⟨n, at_, absent, own⟩ => ⟨n, at_, absent, kind x n own⟩

theorem Pruned.trans (pruned : Pruned gone t t') (pruned' : Pruned gone t' t'') :
    Pruned gone t t'' where
  sound := pruned'.sound
  each x := by
    obtain same' | ⟨n, at_, absent, own⟩ := pruned'.each x
    · rw [same']
      exact pruned.each x
    · exact .inr ⟨n, pruned.sub x n at_, absent, own⟩

theorem Pruned.erase (sound : t.Sound) (at_ : t.node? l = some n) (leaf : n ≠ .directory)
    (own : gone l n) : Pruned gone t (t.erase l) where
  sound := sound.erase at_ leaf
  each x := by
    have deep : l ≠ [] := by
      rintro rfl
      exact leaf (Option.some.inj at_).symm
    rw [node?_erase t deep]
    split_ifs with same
    · exact .inr ⟨n, same ▸ at_, rfl, same ▸ own⟩
    · exact .inl rfl

/-- Where a path leads to a directory in the pruned tree, it did so before. -/
theorem Pruned.directory (pruned : Pruned gone t t') (leads : t'.directory cwd path = .ok l) :
    t.directory cwd path = .ok l :=
  directory_mono pruned.sub leads

/-- Where only files are gone, paths lead to the same directories. -/
theorem Pruned.keepsWays (pruned : Pruned gone t t') (files : ∀ x n, gone x n → n.isFile) :
    KeepsWays t t' := by
  intro x n at_ way
  obtain same | ⟨m, own, _, taken⟩ := pruned.each x
  · rwa [same]
  · cases at_.symm.trans own
    have file := files x n taken
    cases n <;> simp_all [Node.isFile, Node.isLink]

/-- Removing one more path, which finds nothing of another kind. -/
theorem Pruned.remove (pruned : Pruned gone t t')
    (kind : ∀ x n, t.find cwd false path = .ok (x, n) → n ≠ .directory → gone x n)
    (removed : t'.remove cwd path = .ok t'') : Pruned gone t t'' := by
  obtain ⟨x, n, found, leaf, rfl⟩ := remove_eq_ok.mp removed
  have own := kind x n (find_mono pruned.sub found) leaf
  exact pruned.trans (.erase pruned.sound (node?_of_find found) leaf own)

end DecodePipeline.FileTree
