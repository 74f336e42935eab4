import DecodePipeline.Proofs.FileTree.Resolve

/-!
Making directories. Whatever becomes of the attempt, what was there stays as it was, and what is new are
directories; below a directory that is there only the one asked for is new.
-/

namespace DecodePipeline.FileTree

variable {t t' t'' : FileTree} {follow : Bool} {budget : Nat} {cwd here l x : Location}
  {path name : String} {rest : List String}

theorem plain_of_mem_pieces (mem : name ∈ pieces path) : PlainName name := by
  have between (mem : name ∈ ((Path.splitSlash path.toList).filter (· ≠ [])).map String.ofList) :
      PlainName name := by
    obtain ⟨cs, own, rfl⟩ := List.mem_map.mp mem
    obtain ⟨own, filled⟩ := List.mem_filter.mp own
    exact ⟨by simpa using filled, by simpa using Path.slash_notMem_of_mem_splitSlash own⟩
  simp only [pieces] at mem
  split at mem
  · obtain mem | mem := List.mem_append.mp mem
    · exact between mem
    · rw [List.mem_singleton.mp mem]
      exact ⟨by decide, by decide⟩
  · exact between mem

/-- A walk that ends at nothing does so under a legal name in a directory. -/
theorem free_of_walk_of_jump (sound : t.Sound)
    (jumps : ∀ here names, (∀ name ∈ names, PlainName name) → t.node? here = some .directory →
      t.jump follow budget here names = .ok ⟨x, none⟩ →
        ∃ l name, x = l ++ [name] ∧ t.node? l = some .directory ∧ LegalName name)
    (each : ∀ name ∈ rest, PlainName name) (some_ : rest = [] → t.node? here ≠ none)
    (ends : t.walk follow budget here rest = .ok ⟨x, none⟩) :
    ∃ l name, x = l ++ [name] ∧ t.node? l = some .directory ∧ LegalName name := by
  induction rest generalizing here with
  | nil =>
      simp only [walk_nil, Except.ok.injEq, Spot.mk.injEq] at ends
      exact absurd ends.2 (some_ rfl)
  | cons name rest ih =>
      obtain ⟨own, later⟩ := List.forall_mem_cons.mp each
      have inside := directory_of_walk ends
      cases t.meets here name with
      | dot eq =>
          subst eq
          exact ih later (by simp [inside]) (walk_dot inside ▸ ends)
      | up eq =>
          subst eq
          exact ih later (by simp [sound.dropLast inside]) (walk_up inside ▸ ends)
      | long other long => simp [walk_long inside other long] at ends
      | missing ordinary at_ =>
          rw [walk_missing inside ordinary at_] at ends
          split at ends <;> cases ends
          exact ⟨here, name, rfl, inside, own, ordinary⟩
      | link ordinary target at_ =>
          rw [walk_link inside ordinary at_] at ends
          have plain : ∀ name ∈ pieces target ++ rest, PlainName name := by
            intro name mem
            obtain mem | mem := List.mem_append.mp mem
            · exact plain_of_mem_pieces mem
            · exact later name mem
          split_ifs at ends
          · cases ends
          · exact jumps _ _ plain rfl ends
          · exact jumps _ _ plain inside ends
      | node ordinary n at_ direct =>
          exact ih later (by simp [at_]) (walk_node inside ordinary at_ direct ▸ ends)

theorem free_of_walk (sound : t.Sound) (each : ∀ name ∈ rest, PlainName name)
    (some_ : rest = [] → t.node? here ≠ none)
    (ends : t.walk follow budget here rest = .ok ⟨x, none⟩) :
    ∃ l name, x = l ++ [name] ∧ t.node? l = some .directory ∧ LegalName name := by
  induction budget generalizing here rest with
  | zero => exact free_of_walk_of_jump sound (by simp [jump]) each some_ ends
  | succ budget ih =>
      refine free_of_walk_of_jump sound ?_ each some_ ends
      exact fun here names each inside ends => ih each (by simp [inside]) ends

/-! ## Trees with more directories -/

/-- Some directories are new in a tree. -/
structure Grown (t t' : FileTree) : Prop where
  sound : t'.Sound
  each : ∀ x, t'.node? x = t.node? x ∨ t.node? x = none ∧ t'.node? x = some .directory

theorem Grown.refl (sound : t.Sound) : Grown t t := ⟨sound, fun _ => .inl rfl⟩

theorem Grown.sub (grown : Grown t t') (x : Location) (n : Node) (at_ : t.node? x = some n) :
    t'.node? x = some n := by
  obtain same | ⟨free, _⟩ := grown.each x
  · exact same.trans at_
  · rw [free] at at_
    contradiction

theorem Grown.trans (grown : Grown t t') (grown' : Grown t' t'') : Grown t t'' where
  sound := grown'.sound
  each x := by
    obtain same | ⟨free, new⟩ := grown.each x <;> obtain same' | ⟨free', new'⟩ := grown'.each x
    · exact .inl (same'.trans same)
    · exact .inr ⟨same ▸ free', new'⟩
    · exact .inr ⟨free, same'.trans new⟩
    · rw [new] at free'
      contradiction

theorem makeDirectory_eq_ok : t.makeDirectory cwd path = .ok t' ↔
    ∃ x, t.resolve cwd false (withoutFinalSlashes path) = .ok ⟨x, none⟩ ∧
      t.put x .directory = t' := by
  simp only [makeDirectory]
  cases t.resolve cwd false (withoutFinalSlashes path) with
  | error => simp [bind, Except.bind]
  | ok s =>
      obtain ⟨x, m⟩ := s
      cases m <;> simp [bind, Except.bind, pure, Except.pure]

theorem makeDirectory_grown (sound : t.Sound) (made : t.makeDirectory cwd path = .ok t') :
    Grown t t' := by
  obtain ⟨x, ends, rfl⟩ := makeDirectory_eq_ok.mp made
  have passable := passable_of_resolve ends
  rw [resolve_of_passable passable] at ends
  obtain ⟨l, name, rfl, inside, legal⟩ := free_of_walk sound (fun _ => plain_of_mem_pieces)
    (fun none => absurd none (pieces_ne_nil passable.filled)) ends
  have free := (node?_of_walk ends).symm
  refine ⟨sound.put free inside legal _, fun x => ?_⟩
  rw [node?_put t (by simp)]
  split_ifs with same
  · exact .inr ⟨same ▸ free, rfl⟩
  · exact .inl rfl

theorem ensureDirectory_grown (sound : t.Sound) (cwd : Location) (path : String) :
    Grown t (t.ensureDirectory cwd path).1 := by
  simp only [ensureDirectory]
  cases made : t.makeDirectory cwd path with
  | ok t' => exact makeDirectory_grown sound made
  | error e => exact .refl sound

theorem makeDirectories_grown (sound : t.Sound) (cwd : Location) (fuel : Nat) (path : String) :
    Grown t (t.makeDirectories cwd fuel path).1 := by
  induction fuel generalizing path with
  | zero => exact .refl sound
  | succ fuel ih =>
      have own := ensureDirectory_grown sound cwd path
      simp only [makeDirectories]
      split_ifs
      · exact .refl sound
      rcases eq : t.ensureDirectory cwd path with ⟨t', made | made⟩
      all_goals rw [eq] at own
      · cases Path.parent? path with
        | none => exact own
        | some above =>
            have before := ih above
            dsimp only
            split_ifs
            · rcases eq' : t.makeDirectories cwd fuel above with ⟨t'', made' | made'⟩
              all_goals rw [eq'] at before
              · exact before
              · exact before.trans (ensureDirectory_grown before.sound cwd path)
            · exact own
      · exact own

/-- What was there stays as it was, and what is new are directories. -/
theorem createDirectories_grown (sound : t.Sound) (cwd : Location) (path : String) :
    Grown t (t.createDirectories cwd path).1 :=
  makeDirectories_grown sound cwd _ path

theorem withoutFinalSlashes_eq_self (other : path.toList.getLast? ≠ some '/') :
    withoutFinalSlashes path = path := by
  have kept : path.toList.reverse.dropWhile (· = '/') = path.toList.reverse := by
    cases eq : path.toList.reverse with
    | nil => rfl
    | cons c cs =>
        have last : c ≠ '/' := by
          rintro rfl
          exact other (by rw [← List.head?_reverse, eq]; rfl)
        simp [last]
  simp only [withoutFinalSlashes, kept, List.reverse_reverse, String.ofList_toList, ite_self]

theorem makeDirectories_of_made (left : path ≠ "") (made : t.makeDirectory cwd path = .ok t')
    (fuel : Nat) : (t.makeDirectories cwd (fuel + 1) path).1 = t' := by
  simp [makeDirectories, ensureDirectory, made, left]

/-- A directory that cannot be made, though nothing above it is missing, leaves the tree as it is. -/
theorem makeDirectories_of_error {e : SystemError} (fails : t.makeDirectory cwd path = .error e)
    (other : e ≠ .notFound) (fuel : Nat) : (t.makeDirectories cwd (fuel + 1) path).1 = t := by
  simp only [makeDirectories, ensureDirectory, fails]
  split_ifs
  · rfl
  · rfl
  · cases Path.parent? path <;> simp [other]

/-- Below a directory that is there, only the directory asked for is new. -/
theorem createDirectories_within {r : Location} (left : path ≠ "") (plain : PlainName name)
    (leads : t.directory cwd path = .ok r) (notDot : name ≠ ".") (notDots : name ≠ "..") :
    (t.createDirectories cwd (Path.join path name)).1 = t ∨
      (t.createDirectories cwd (Path.join path name)).1 = t.put (r ++ [name]) .directory := by
  have left' := Path.join_ne_empty plain.filled path
  have resolved (r : Except SystemError Spot)
      (ends : t.resolve cwd false (Path.join path name) = r) :
      t.resolve cwd false (withoutFinalSlashes (Path.join path name)) = r := by
    rw [withoutFinalSlashes_eq_self (getLast?_join plain path), ends]
  simp only [createDirectories]
  cases resolve_join t cwd left plain with
  | nowhere never fails =>
      obtain ⟨e, fails⟩ := fails false
      have stuck : t.makeDirectory cwd (Path.join path name) = .error e := by
        simp only [makeDirectory, resolved _ fails, bind, Except.bind]
      refine .inl (makeDirectories_of_error stuck ?_ _)
      rintro rfl
      exact never (passable_of_resolve_notFound left' fails) r leads
  | within l budget own passable resolves =>
      cases leads.symm.trans own
      have inside := node?_of_directory leads
      have ends := resolved _ (resolves false)
      have taken {x : Location} {n : Node} (at_ : t.walk false budget r [name] = .ok ⟨x, some n⟩) :
          t.makeDirectory cwd (Path.join path name) = .error .alreadyExists := by
        simp only [makeDirectory, ends, at_, bind, Except.bind]
      cases t.meets r name with
      | dot eq => exact absurd eq notDot
      | up eq => exact absurd eq notDots
      | long other long =>
          rw [walk_long inside other long] at ends
          have stuck : t.makeDirectory cwd (Path.join path name) = .error .nameTooLong := by
            simp only [makeDirectory, ends, bind, Except.bind]
          exact .inl (makeDirectories_of_error stuck (by decide) _)
      | missing ordinary at_ =>
          rw [walk_missing inside ordinary at_, if_pos rfl] at ends
          exact .inr (makeDirectories_of_made left' (makeDirectory_eq_ok.mpr ⟨_, ends, rfl⟩) _)
      | link ordinary target at_ =>
          have stuck := taken (walk_link inside ordinary at_)
          exact .inl (makeDirectories_of_error stuck (by decide) _)
      | node ordinary m at_ direct =>
          have stuck := taken ((walk_node inside ordinary at_ direct).trans (by rw [walk_nil, at_]))
          exact .inl (makeDirectories_of_error stuck (by decide) _)

end DecodePipeline.FileTree
