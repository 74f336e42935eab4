import DecodePipeline.Proofs.FileTree.Sound
import DecodePipeline.Proofs.Path

/-!
Where paths lead. A walk over names that ends in a directory can be taken up there with the names behind
them; it ends in the same place in every tree with more entries, and dots on the way count for nothing.
-/

namespace DecodePipeline.FileTree

variable {t t' : FileTree} {follow : Bool} {budget : Nat} {here l : Location} {name : String}
  {rest : List String} {n : Node}

/-! ## One name -/

/-- What comes behind a link, if one more may be followed. -/
def jump (t : FileTree) (follow : Bool) :
    Nat → Location → List String → Except SystemError Spot
  | 0, _, _ => .error .tooManyLinks
  | budget + 1, here, names => t.walk follow budget here names

/-- What a walk meets under a name in a directory. -/
inductive Meets (t : FileTree) (here : Location) (name : String) : Prop where
  | dot (eq : name = ".")
  | up (eq : name = "..")
  | long (other : name ≠ "." ∧ name ≠ "..") (long : nameLimit < name.utf8ByteSize)
  | missing (ordinary : OrdinaryName name) (at_ : t.node? (here ++ [name]) = none)
  | link (ordinary : OrdinaryName name) (target : String)
      (at_ : t.node? (here ++ [name]) = some (.link target))
  | node (ordinary : OrdinaryName name) (n : Node) (at_ : t.node? (here ++ [name]) = some n)
      (direct : n.isLink = false)

theorem meets (t : FileTree) (here : Location) (name : String) : t.Meets here name := by
  by_cases dot : name = "."
  · exact .dot dot
  by_cases up : name = ".."
  · exact .up up
  by_cases long : nameLimit < name.utf8ByteSize
  · exact .long ⟨dot, up⟩ long
  have ordinary : OrdinaryName name := ⟨dot, up, Nat.le_of_not_lt long⟩
  cases at_ : t.node? (here ++ [name]) with
  | none => exact .missing ordinary at_
  | some n =>
      cases direct : n.isLink with
      | false => exact .node ordinary n at_ direct
      | true =>
          cases n with
          | link target => exact .link ordinary target at_
          | directory | file | sink | zeros | stream | tool => cases direct

@[simp]
theorem walk_nil (t : FileTree) (follow : Bool) (budget : Nat) (here : Location) :
    t.walk follow budget here [] = .ok ⟨here, t.node? here⟩ := by
  cases budget <;> rfl

theorem walk_elsewhere (other : t.node? here ≠ some .directory) :
    ∃ e, ∀ follow budget name rest, t.walk follow budget here (name :: rest) = .error e := by
  cases at_ : t.node? here with
  | none => exact ⟨.notFound, fun _ budget _ _ => by cases budget <;> simp [walk, walkBy, at_]⟩
  | some n =>
      refine ⟨.notDirectory, fun _ budget _ _ => ?_⟩
      cases budget <;> cases n <;> simp_all [walk, walkBy]

theorem directory_of_walk {s : Spot} (ends : t.walk follow budget here (name :: rest) = .ok s) :
    t.node? here = some .directory := by
  by_contra other
  obtain ⟨e, fails⟩ := walk_elsewhere other
  rw [fails] at ends
  cases ends

section

variable (inside : t.node? here = some .directory)

include inside

theorem walk_dot : t.walk follow budget here ("." :: rest) = t.walk follow budget here rest := by
  cases budget <;> simp [walk, walkBy, inside]

theorem walk_up :
    t.walk follow budget here (".." :: rest) = t.walk follow budget here.dropLast rest := by
  cases budget <;> simp [walk, walkBy, inside]

theorem walk_long (other : name ≠ "." ∧ name ≠ "..") (long : nameLimit < name.utf8ByteSize) :
    t.walk follow budget here (name :: rest) = .error .nameTooLong := by
  cases budget <;> simp [walk, walkBy, inside, other, long]

theorem walk_missing (ordinary : OrdinaryName name) (at_ : t.node? (here ++ [name]) = none) :
    t.walk follow budget here (name :: rest) =
      if rest = [] then .ok ⟨here ++ [name], none⟩ else .error .notFound := by
  have short := Nat.not_lt.mpr ordinary.short
  cases budget <;>
    simp [walk, walkBy, inside, ordinary.notDot, ordinary.notDots, short, at_]

theorem walk_link (ordinary : OrdinaryName name) {target : String}
    (at_ : t.node? (here ++ [name]) = some (.link target)) :
    t.walk follow budget here (name :: rest) =
      if rest = [] ∧ ¬follow then .ok ⟨here ++ [name], some (.link target)⟩
      else if target.isEmpty then .error .notFound
      else
        t.jump follow budget (if Path.isAbsolute target then [] else here)
          (pieces target ++ rest) := by
  have short := Nat.not_lt.mpr ordinary.short
  cases budget <;>
    simp [walk, walkBy, jump, inside, ordinary.notDot, ordinary.notDots, short, at_]

theorem walk_node (ordinary : OrdinaryName name) (at_ : t.node? (here ++ [name]) = some n)
    (direct : n.isLink = false) :
    t.walk follow budget here (name :: rest) = t.walk follow budget (here ++ [name]) rest := by
  have short := Nat.not_lt.mpr ordinary.short
  cases budget <;> cases n <;>
    simp_all [walk, walkBy, ordinary.notDot, ordinary.notDots, Node.isLink]

end

/-! ## Many names

What holds of a walk is proved by induction on the names, given that it holds behind a link (`jump`), and
from that by induction on the number of links that may be followed.
-/

/-- A walk that ends in a directory is taken up there; one that does not is not taken up. -/
inductive TakenUp (t : FileTree) (walked : Except SystemError Spot)
    (on : Bool → List String → Except SystemError Spot) : Prop where
  | there (l : Location) (budget : Nat) (ends : walked = .ok ⟨l, some .directory⟩)
      (onward : ∀ follow rest, rest ≠ [] → on follow rest = t.walk follow budget l rest)
  | nowhere (never : ∀ l, walked ≠ .ok ⟨l, some .directory⟩)
      (fails : ∀ follow rest, rest ≠ [] → ∃ e, on follow rest = .error e)

theorem takenUp_of_jump
    (jumps : ∀ here names, TakenUp t (t.jump true budget here names) fun follow rest =>
      t.jump follow budget here (names ++ rest))
    (here : Location) (names : List String) :
    TakenUp t (t.walk true budget here names) fun follow rest =>
      t.walk follow budget here (names ++ rest) := by
  induction names generalizing here with
  | nil =>
      by_cases inside : t.node? here = some .directory
      · exact .there here budget (by simp [inside]) fun _ _ _ => rfl
      · refine .nowhere (by simp [inside]) fun follow rest filled => ?_
        obtain ⟨name, rest, rfl⟩ := List.exists_cons_of_ne_nil filled
        obtain ⟨e, fails⟩ := walk_elsewhere inside
        exact ⟨e, fails _ _ _ _⟩
  | cons name names ih =>
      simp only [List.cons_append]
      by_cases inside : t.node? here = some .directory
      · cases t.meets here name with
        | dot eq =>
            subst eq
            simpa only [walk_dot inside] using ih here
        | up eq =>
            subst eq
            simpa only [walk_up inside] using ih here.dropLast
        | long other long =>
            simp only [walk_long inside other long]
            exact .nowhere (by simp) fun _ _ _ => ⟨_, rfl⟩
        | missing ordinary at_ =>
            simp only [walk_missing inside ordinary at_]
            refine .nowhere (fun l => by split <;> simp) fun _ _ filled => ?_
            exact ⟨.notFound, by simp [filled]⟩
        | link ordinary target at_ =>
            simp only [walk_link inside ordinary at_]
            by_cases empty : target.isEmpty
            · refine .nowhere (fun l => by simp [empty]) fun _ _ filled => ?_
              exact ⟨.notFound, by simp [empty, filled]⟩
            · cases jumps (if Path.isAbsolute target then [] else here) (pieces target ++ names) with
              | there l left ends onward =>
                  refine .there l left (by simp [empty, ends]) fun follow rest filled => ?_
                  simpa [filled, empty] using onward follow rest filled
              | nowhere never fails =>
                  refine .nowhere (by simp [empty, never]) fun follow rest filled => ?_
                  simpa [filled, empty] using fails follow rest filled
        | node ordinary n at_ direct =>
            simpa only [walk_node inside ordinary at_ direct] using ih (here ++ [name])
      · obtain ⟨e, fails⟩ := walk_elsewhere inside
        exact .nowhere (by simp [fails]) fun _ _ _ => ⟨e, fails _ _ _ _⟩

/-- Behind a directory the walk goes on from there; behind anything else it fails. -/
theorem walk_append (t : FileTree) (budget : Nat) (here : Location) (names : List String) :
    TakenUp t (t.walk true budget here names) fun follow rest =>
      t.walk follow budget here (names ++ rest) := by
  induction budget generalizing here names with
  | zero =>
      exact takenUp_of_jump (fun _ _ => .nowhere (by simp [jump]) fun _ _ _ => ⟨_, rfl⟩) here names
  | succ budget ih => exact takenUp_of_jump ih here names

theorem walk_insert_dot_of_jump (filled : rest ≠ [])
    (jumps : ∀ here names, t.jump follow budget here (names ++ "." :: rest) =
      t.jump follow budget here (names ++ rest))
    (here : Location) (names : List String) :
    t.walk follow budget here (names ++ "." :: rest) = t.walk follow budget here (names ++ rest) := by
  induction names generalizing here with
  | nil =>
      by_cases inside : t.node? here = some .directory
      · exact walk_dot inside
      · obtain ⟨name, rest, rfl⟩ := List.exists_cons_of_ne_nil filled
        obtain ⟨e, fails⟩ := walk_elsewhere inside
        simp only [List.nil_append, fails]
  | cons name names ih =>
      simp only [List.cons_append]
      by_cases inside : t.node? here = some .directory
      · cases t.meets here name with
        | dot eq =>
            subst eq
            simpa only [walk_dot inside] using ih here
        | up eq =>
            subst eq
            simpa only [walk_up inside] using ih here.dropLast
        | long other long => simp only [walk_long inside other long]
        | missing ordinary at_ => simp [walk_missing inside ordinary at_, filled]
        | link ordinary target at_ =>
            have jumps := jumps (if Path.isAbsolute target then [] else here)
              (pieces target ++ names)
            simp only [List.append_assoc] at jumps
            simp [walk_link inside ordinary at_, filled, jumps]
        | node ordinary n at_ direct =>
            simpa only [walk_node inside ordinary at_ direct] using ih (here ++ [name])
      · obtain ⟨e, fails⟩ := walk_elsewhere inside
        simp only [fails]

/-- A dot before other names is passed over. -/
theorem walk_insert_dot (t : FileTree) (follow : Bool) (budget : Nat) (here : Location)
    (names : List String) (filled : rest ≠ []) :
    t.walk follow budget here (names ++ "." :: rest) = t.walk follow budget here (names ++ rest) := by
  induction budget generalizing here names with
  | zero => exact walk_insert_dot_of_jump filled (fun _ _ => rfl) here names
  | succ budget ih =>
      refine walk_insert_dot_of_jump filled ?_ here names
      exact ih

/-- Dots before other names are passed over. -/
theorem walk_filter (t : FileTree) (follow : Bool) (budget : Nat) (here : Location)
    (front names : List String) (filled : rest ≠ []) :
    t.walk follow budget here (front ++ names ++ rest) =
      t.walk follow budget here (front ++ names.filter (· ≠ ".") ++ rest) := by
  induction names generalizing front with
  | nil => rfl
  | cons name names ih =>
      by_cases dot : name = "."
      · subst dot
        have passed : t.walk follow budget here (front ++ "." :: (names ++ rest)) =
            t.walk follow budget here (front ++ (names ++ rest)) :=
          walk_insert_dot t follow budget here front (by simp [filled])
        simpa using passed.trans (by simpa using ih front)
      · simpa [dot] using ih (front ++ [name])

theorem node?_of_walk_of_jump
    (jumps : ∀ here names s, t.jump follow budget here names = .ok s → s.node = t.node? s.location)
    {s : Spot} (ends : t.walk follow budget here rest = .ok s) : s.node = t.node? s.location := by
  induction rest generalizing here with
  | nil =>
      simp only [walk_nil, Except.ok.injEq] at ends
      rw [← ends]
  | cons name rest ih =>
      have inside := directory_of_walk ends
      cases t.meets here name with
      | dot eq =>
          subst eq
          exact ih (walk_dot inside ▸ ends)
      | up eq =>
          subst eq
          exact ih (walk_up inside ▸ ends)
      | long other long => simp [walk_long inside other long] at ends
      | missing ordinary at_ =>
          rw [walk_missing inside ordinary at_] at ends
          split at ends <;> cases ends
          exact at_.symm
      | link ordinary target at_ =>
          rw [walk_link inside ordinary at_] at ends
          split_ifs at ends
          · cases ends
            exact at_.symm
          all_goals exact jumps _ _ _ ends
      | node ordinary n at_ direct => exact ih (walk_node inside ordinary at_ direct ▸ ends)

/-- A walk gives the node at the place where it ends. -/
theorem node?_of_walk {s : Spot} (ends : t.walk follow budget here rest = .ok s) :
    s.node = t.node? s.location := by
  induction budget generalizing here rest s with
  | zero => exact node?_of_walk_of_jump (by simp [jump]) ends
  | succ budget ih =>
      refine node?_of_walk_of_jump ?_ ends
      exact fun _ _ _ ends => ih ends

/-- The directories and links of a tree, by which paths lead, are in another tree as well. -/
def KeepsWays (t t' : FileTree) : Prop :=
  ∀ x n, t.node? x = some n → n = .directory ∨ n.isLink → t'.node? x = some n

/-- A last name leads to what is at it, unless that is a link. -/
theorem walk_last (inside : t.node? here = some .directory) (ordinary : OrdinaryName name)
    (direct : ∀ n, t.node? (here ++ [name]) = some n → n.isLink = false) :
    t.walk follow budget here [name] = .ok ⟨here ++ [name], t.node? (here ++ [name])⟩ := by
  cases at_ : t.node? (here ++ [name]) with
  | none => rw [walk_missing inside ordinary at_, if_pos rfl]
  | some n => rw [walk_node inside ordinary at_ (direct n at_), walk_nil, at_]

/-- Whatever is no way ends the walk, so that something else may be there in the other tree. -/
theorem walk_last_keeps (keeps : KeepsWays t t')
    (direct : ∀ n, t'.node? l = some n → n.isLink → t.node? l = some n)
    (inside : t.node? here = some .directory) (ordinary : OrdinaryName name)
    (other : ∀ n, t.node? (here ++ [name]) = some n → n.isLink = false)
    (eq : here ++ [name] = l) :
    t'.walk follow budget here [name] = .ok ⟨l, t'.node? l⟩ := by
  subst eq
  refine walk_last (keeps _ _ inside (.inl rfl)) ordinary fun n at_ => ?_
  cases link : n.isLink with
  | false => rfl
  | true => exact link.symm.trans (other n (direct n at_ link))

theorem walk_keeps_of_jump (keeps : KeepsWays t t')
    (direct : ∀ n, t'.node? l = some n → n.isLink → t.node? l = some n)
    (jumps : ∀ here rest n, t.jump follow budget here rest = .ok ⟨l, n⟩ →
      t'.jump follow budget here rest = .ok ⟨l, t'.node? l⟩)
    {m : Option Node} (ends : t.walk follow budget here rest = .ok ⟨l, m⟩) :
    t'.walk follow budget here rest = .ok ⟨l, t'.node? l⟩ := by
  induction rest generalizing here with
  | nil =>
      simp only [walk_nil, Except.ok.injEq, Spot.mk.injEq] at ends ⊢
      exact ⟨ends.1, ends.1 ▸ rfl⟩
  | cons name rest ih =>
      have inside := directory_of_walk ends
      have inside' := keeps _ _ inside (.inl rfl)
      cases t.meets here name with
      | dot eq =>
          subst eq
          rw [walk_dot inside] at ends
          rw [walk_dot inside']
          exact ih ends
      | up eq =>
          subst eq
          rw [walk_up inside] at ends
          rw [walk_up inside']
          exact ih ends
      | long other long =>
          rw [walk_long inside other long] at ends
          cases ends
      | missing ordinary at_ =>
          rw [walk_missing inside ordinary at_] at ends
          split at ends
          · next empty =>
              cases ends
              subst empty
              exact walk_last_keeps keeps direct inside ordinary (by simp [at_]) rfl
          · cases ends
      | link ordinary target at_ =>
          have at_' := keeps _ _ at_ (.inr rfl)
          rw [walk_link inside ordinary at_] at ends
          rw [walk_link inside' ordinary at_']
          split_ifs at ends ⊢
          · cases ends
            rw [at_']
          all_goals exact jumps _ _ _ ends
      | node ordinary n at_ plain =>
          rw [walk_node inside ordinary at_ plain] at ends
          cases rest with
          | nil =>
              simp only [walk_nil, Except.ok.injEq, Spot.mk.injEq] at ends
              refine walk_last_keeps keeps direct inside ordinary (fun n' at_' => ?_) ends.1
              cases at_.symm.trans at_'
              exact plain
          | cons next rest =>
              rw [walk_node inside' ordinary (keeps _ _ (directory_of_walk ends) (.inl rfl)) rfl]
              exact ih ends

/-- In a tree with the same ways a walk ends in the same place, unless there is a new link. -/
theorem walk_keeps (keeps : KeepsWays t t')
    (direct : ∀ n, t'.node? l = some n → n.isLink → t.node? l = some n) {m : Option Node}
    (ends : t.walk follow budget here rest = .ok ⟨l, m⟩) :
    t'.walk follow budget here rest = .ok ⟨l, t'.node? l⟩ := by
  induction budget generalizing here rest m with
  | zero => exact walk_keeps_of_jump keeps direct (by simp [jump]) ends
  | succ budget ih => exact walk_keeps_of_jump keeps direct (fun _ _ _ ends => ih ends) ends

/-- What is found in a tree is found as well in one with more entries. -/
theorem walk_mono (sub : ∀ x n, t'.node? x = some n → t.node? x = some n)
    (found : t'.walk follow budget here rest = .ok ⟨l, some n⟩) :
    t.walk follow budget here rest = .ok ⟨l, some n⟩ := by
  have at_' : t'.node? l = some n := (node?_of_walk found).symm
  have at_ := sub l n at_'
  have keeps : KeepsWays t' t := fun x n own _ => sub x n own
  have ends := walk_keeps keeps (fun m own _ => by rw [at_', ← at_, own]) found
  rw [ends, at_]

theorem walk_final_dot (t : FileTree) (budget : Nat) (here : Location) (names : List String) :
    t.walk true budget here (names ++ ["."]) = .ok ⟨l, some .directory⟩ ↔
      t.walk true budget here names = .ok ⟨l, some .directory⟩ := by
  cases walk_append t budget here names with
  | there l' left ends onward =>
      have inside : t.node? l' = some .directory := (node?_of_walk ends).symm
      rw [onward true ["."] (by simp), ends, walk_dot inside, walk_nil, inside]
  | nowhere never fails =>
      obtain ⟨e, fails⟩ := fails true ["."] (by simp)
      exact iff_of_false (by simp [fails]) (never l)

/-- Dots anywhere on the way to a directory are passed over. -/
theorem walk_directory_filter (t : FileTree) (budget : Nat) (here : Location) (names : List String) :
    t.walk true budget here names = .ok ⟨l, some .directory⟩ ↔
      t.walk true budget here (names.filter (· ≠ ".")) = .ok ⟨l, some .directory⟩ := by
  rw [← walk_final_dot, ← walk_final_dot t budget here (names.filter _)]
  have passed : t.walk true budget here ([] ++ names ++ ["."]) = _ :=
    walk_filter t true budget here [] names (by simp)
  rw [List.nil_append] at passed
  rw [passed, List.nil_append]

/-! ## Paths -/

/-- The names on a path, without dots. -/
def steps (path : String) : List String := (pieces path).filter (· ≠ ".")

/-- Where a path starts. -/
def origin (cwd : Location) (path : String) : Location := if Path.isAbsolute path then [] else cwd

/-- A path that the system takes. -/
structure Passable (path : String) : Prop where
  filled : path ≠ ""
  zeroFree : '\x00' ∉ path.toList
  short : path.utf8ByteSize < pathLimit

section

variable {cwd : Location} {path : String}

theorem resolve_of_passable (passable : Passable path) :
    t.resolve cwd follow path = t.walk follow linkLimit (origin cwd path) (pieces path) := by
  have zeroFree : path.toList.contains '\x00' = false := by simpa using passable.zeroFree
  have filled : path.isEmpty = false := by simpa [String.isEmpty_iff] using passable.filled
  simp [resolve, origin, passable.zeroFree, filled, Nat.not_le.mpr passable.short]

theorem passable_of_resolve {s : Spot} (ends : t.resolve cwd follow path = .ok s) :
    Passable path := by
  simp only [resolve] at ends
  split_ifs at ends with zero empty long
  all_goals
    exact ⟨by simpa [String.isEmpty_iff] using empty, by simpa using zero, Nat.lt_of_not_le long⟩

theorem passable_of_resolve_notFound (left : path ≠ "")
    (fails : t.resolve cwd follow path = .error .notFound) : Passable path := by
  simp only [resolve, String.isEmpty_iff, left, if_false] at fails
  by_cases zero : path.toList.contains '\x00'
  · rw [if_pos zero] at fails
    cases fails
  by_cases long : pathLimit ≤ path.utf8ByteSize
  · rw [if_neg zero, if_pos long] at fails
    cases fails
  exact ⟨left, by simpa using zero, Nat.lt_of_not_le long⟩

/-- A path that leads nowhere could be asked for. -/
theorem passable_of_notFound (left : path ≠ "") (fails : t.find cwd follow path = .error .notFound) :
    Passable path := by
  cases ends : t.resolve cwd follow path with
  | ok s => exact passable_of_resolve ends
  | error e =>
      simp only [find, ends, bind, Except.bind, Except.error.injEq] at fails
      exact passable_of_resolve_notFound left (fails ▸ ends)

theorem node?_of_resolve {s : Spot} (ends : t.resolve cwd follow path = .ok s) :
    s.node = t.node? s.location := by
  rw [resolve_of_passable (passable_of_resolve ends)] at ends
  exact node?_of_walk ends

theorem find_eq_ok {l : Location} {n : Node} :
    t.find cwd follow path = .ok (l, n) ↔ t.resolve cwd follow path = .ok ⟨l, some n⟩ := by
  simp only [find]
  cases t.resolve cwd follow path with
  | error => simp [bind, Except.bind]
  | ok s =>
      obtain ⟨x, m⟩ := s
      cases m <;> simp [bind, Except.bind, pure, Except.pure]

theorem node?_of_find {l : Location} {n : Node} (found : t.find cwd follow path = .ok (l, n)) :
    t.node? l = some n :=
  (node?_of_resolve (find_eq_ok.mp found)).symm

theorem directory_eq_ok {l : Location} :
    t.directory cwd path = .ok l ↔ t.resolve cwd true path = .ok ⟨l, some .directory⟩ := by
  rw [← find_eq_ok]
  simp only [directory]
  cases t.find cwd true path with
  | error => simp [bind, Except.bind]
  | ok found =>
      obtain ⟨x, m⟩ := found
      cases m <;> simp [bind, Except.bind, pure, Except.pure]

theorem isDirectory_iff : t.isDirectory cwd path ↔ ∃ l, t.directory cwd path = .ok l := by
  simp only [isDirectory, stat, directory]
  cases t.find cwd true path with
  | error => simp [Except.map, bind, Except.bind]
  | ok found =>
      obtain ⟨x, m⟩ := found
      cases m <;> simp [Except.map, Node.isDirectory, bind, Except.bind, pure, Except.pure]

/-- A path leads to a directory if its names do. -/
theorem directory_iff {l : Location} :
    t.directory cwd path = .ok l ↔
      Passable path ∧ t.walk true linkLimit (origin cwd path) (steps path) =
        .ok ⟨l, some .directory⟩ := by
  rw [directory_eq_ok, steps, ← walk_directory_filter]
  constructor
  · intro ends
    have passable := passable_of_resolve ends
    exact ⟨passable, resolve_of_passable passable ▸ ends⟩
  · rintro ⟨passable, ends⟩
    rw [resolve_of_passable passable, ends]

theorem node?_of_directory {l : Location} (ends : t.directory cwd path = .ok l) :
    t.node? l = some .directory :=
  (node?_of_walk (directory_iff.mp ends).2).symm

/-- What leads to a directory leads there in every tree with more entries. -/
theorem directory_mono (sub : ∀ x n, t'.node? x = some n → t.node? x = some n) {l : Location}
    (ends : t'.directory cwd path = .ok l) : t.directory cwd path = .ok l := by
  obtain ⟨passable, ends⟩ := directory_iff.mp ends
  exact directory_iff.mpr ⟨passable, walk_mono sub ends⟩

theorem find_mono (sub : ∀ x n, t'.node? x = some n → t.node? x = some n) {l : Location}
    (found : t'.find cwd follow path = .ok (l, n)) : t.find cwd follow path = .ok (l, n) := by
  have ends := find_eq_ok.mp found
  have passable := passable_of_resolve ends
  rw [resolve_of_passable passable] at ends
  exact find_eq_ok.mpr (resolve_of_passable passable ▸ walk_mono sub ends)

/-- In a tree with the same ways a path leads to the same place, unless there is a new link. -/
theorem resolve_keeps (keeps : KeepsWays t t') {l : Location} {m : Option Node}
    (direct : ∀ n, t'.node? l = some n → n.isLink → t.node? l = some n)
    (ends : t.resolve cwd follow path = .ok ⟨l, m⟩) :
    t'.resolve cwd follow path = .ok ⟨l, t'.node? l⟩ := by
  have passable := passable_of_resolve ends
  rw [resolve_of_passable passable] at ends ⊢
  exact walk_keeps keeps direct ends

theorem directory_keeps (keeps : KeepsWays t t') {l : Location}
    (leads : t.directory cwd path = .ok l) : t'.directory cwd path = .ok l := by
  have inside := keeps l _ (node?_of_directory leads) (.inl rfl)
  rw [directory_eq_ok] at leads ⊢
  rw [← inside]
  refine resolve_keeps keeps (fun n at_ link => ?_) leads
  cases inside.symm.trans at_
  cases link

theorem pieces_ne_nil (left : path ≠ "") : pieces path ≠ [] := by
  obtain ⟨front, c, eq⟩ := List.eq_nil_or_concat path.toList |>.resolve_left (by simpa using left)
  simp only [pieces]
  split
  · simp
  · next last =>
      have other : c ≠ '/' := by simpa [eq] using last
      obtain ⟨piece, own, inside⟩ := Path.exists_mem_splitSlash
        (show c ∈ path.toList by simp [eq]) other
      intro none
      have mem : piece ∈ (Path.splitSlash path.toList).filter (· ≠ []) :=
        List.mem_filter.mpr ⟨own, by simpa using List.ne_nil_of_mem inside⟩
      rw [List.map_eq_nil_iff.mp none] at mem
      contradiction

/-- The dot behind a slash at the end is left out with the others. -/
theorem steps_eq (path : String) : steps path =
    (((Path.splitSlash path.toList).filter (· ≠ [])).map String.ofList).filter (· ≠ ".") := by
  simp only [steps, pieces]
  split
  · rw [List.filter_append]
    simp
  · rfl

theorem getLast?_join (plain : PlainName name) (path : String) :
    (Path.join path name).toList.getLast? ≠ some '/' := by
  have filled : name.toList ≠ [] := by simpa using plain.filled
  rw [Path.toList_join plain.plain, List.getLast?_append_of_ne_nil _ filled]
  exact fun slash => plain.plain (List.mem_of_getLast? slash)

/-- The names on a joined path are those on its left side, up to dots, and the right side. -/
theorem pieces_join (plain : PlainName name) (path : String) :
    ∃ front, pieces (Path.join path name) = front ++ [name] ∧
      front.filter (· ≠ ".") = steps path := by
  rw [pieces, if_neg (getLast?_join plain path)]
  obtain ⟨filled, plain⟩ := plain
  have filled : name.toList ≠ [] := by simpa using filled
  by_cases left : path = ""
  · subst left
    refine ⟨[], ?_, by decide⟩
    simp [Path.join_empty plain, Path.splitSlash_plain plain, filled]
  · obtain ⟨first, rest, whole, own⟩ := Path.splitSlash_join left plain
    refine ⟨((first :: rest).filter (· ≠ [])).map String.ofList, ?_, ?_⟩
    · rw [whole, ← List.cons_append, List.filter_append, List.map_append]
      simp [filled]
    · rw [steps_eq]
      obtain own | own := own
      · rw [own]
      · rw [own, ← List.cons_append, List.filter_append]
        simp

theorem steps_join (left : path ≠ "") (plain : '/' ∉ name.toList) :
    steps (Path.join path name) = steps path ++ steps name := by
  obtain ⟨first, rest, whole, own⟩ := Path.splitSlash_join left plain
  rw [steps_eq, steps_eq path, steps_eq name, whole, Path.splitSlash_plain plain, ← List.cons_append,
    List.filter_append, List.map_append, List.filter_append]
  obtain own | own := own
  · rw [own]
  · rw [own, ← List.cons_append, List.filter_append]
    simp

theorem origin_join (left : path ≠ "") (plain : '/' ∉ name.toList) :
    origin cwd (Path.join path name) = origin cwd path := by
  simp only [origin, Path.isAbsolute_join left plain]

theorem passable_of_join (left : path ≠ "") (plain : '/' ∉ name.toList)
    (passable : Passable (Path.join path name)) : Passable path := by
  obtain ⟨more, eq⟩ := Path.exists_join_eq plain path
  obtain ⟨_, zeroFree, short⟩ := eq ▸ passable
  rw [String.utf8ByteSize_append] at short
  exact ⟨left, fun zero => zeroFree (by simp [zero]), by omega⟩

/-- How a joined path is resolved: one name further, from where the left side leads. -/
inductive JoinResolved (t : FileTree) (cwd : Location) (path name : String) : Prop where
  | within (l : Location) (budget : Nat) (leads : t.directory cwd path = .ok l)
      (passable : Passable (Path.join path name))
      (resolves : ∀ follow,
        t.resolve cwd follow (Path.join path name) = t.walk follow budget l [name])
  | nowhere (never : Passable (Path.join path name) → ∀ l, t.directory cwd path ≠ .ok l)
      (fails : ∀ follow, ∃ e, t.resolve cwd follow (Path.join path name) = .error e)

theorem resolve_join (t : FileTree) (cwd : Location) (left : path ≠ "") (plain : PlainName name) :
    JoinResolved t cwd path name := by
  by_cases passable : Passable (Path.join path name)
  · obtain ⟨front, pieces, own⟩ := pieces_join plain path
    have resolves (follow : Bool) : t.resolve cwd follow (Path.join path name) =
        t.walk follow linkLimit (origin cwd path) (steps path ++ [name]) := by
      rw [resolve_of_passable passable, pieces, origin_join left plain.plain, ← own]
      exact walk_filter t follow linkLimit _ [] front (by simp)
    have own := passable_of_join left plain.plain passable
    cases walk_append t linkLimit (origin cwd path) (steps path) with
    | there l budget ends onward =>
        exact .within l budget (directory_iff.mpr ⟨own, ends⟩) passable fun follow =>
          (resolves follow).trans (onward follow [name] (by simp))
    | nowhere never fails =>
        refine .nowhere (fun _ l leads => never l (directory_iff.mp leads).2) fun follow => ?_
        rw [resolves]
        exact fails follow [name] (by simp)
  · refine .nowhere (fun own => absurd own passable) fun follow => ?_
    cases ends : t.resolve cwd follow (Path.join path name) with
    | error e => exact ⟨e, rfl⟩
    | ok s => exact absurd (passable_of_resolve ends) passable

/-- A name below a directory leads to the directory of that name, or through a link. -/
theorem directory_join (left : path ≠ "") (legal : LegalName name)
    (reaches : t.directory cwd (Path.join path name) = .ok l) :
    ∃ above n, t.directory cwd path = .ok above ∧ t.node? (above ++ [name]) = some n ∧
      (n = .directory ∧ l = above ++ [name] ∨ n.isLink) := by
  have ends := directory_eq_ok.mp reaches
  cases resolve_join t cwd left legal.toPlainName with
  | nowhere never fails =>
      obtain ⟨e, fails⟩ := fails true
      rw [fails] at ends
      cases ends
  | within above budget leads _ resolves =>
      have inside := node?_of_directory leads
      rw [resolves] at ends
      cases t.meets above name with
      | dot eq => exact absurd eq legal.notDot
      | up eq => exact absurd eq legal.notDots
      | long _ long => exact absurd legal.short (Nat.not_le.mpr long)
      | missing ordinary at_ =>
          rw [walk_missing inside ordinary at_] at ends
          cases ends
      | link _ target at_ => exact ⟨above, _, leads, at_, .inr rfl⟩
      | node ordinary n at_ direct =>
          rw [walk_node inside ordinary at_ direct, walk_nil, at_] at ends
          cases ends
          exact ⟨above, _, leads, at_, .inl ⟨rfl, rfl⟩⟩

/-- A name below a directory finds what is there unless that is a link. -/
theorem find_join_direct (left : path ≠ "") (legal : LegalName name)
    (passable : Passable (Path.join path name)) (leads : t.directory cwd path = .ok l)
    (at_ : t.node? (l ++ [name]) = some n) (direct : n.isLink = false) :
    t.find cwd follow (Path.join path name) = .ok (l ++ [name], n) := by
  cases resolve_join t cwd left legal.toPlainName with
  | nowhere never => exact absurd leads (never passable l)
  | within above budget own _ resolves =>
      cases leads.symm.trans own
      have inside := node?_of_directory leads
      rw [find_eq_ok, resolves, walk_node inside legal.toOrdinaryName at_ direct, walk_nil, at_]

/-- What is not a directory and yet leads to one is a link. -/
theorem isLink_of_find {x : Location} (found : t.find cwd false path = .ok (x, n))
    (leads : t.directory cwd path = .ok l) (leaf : n ≠ .directory) : n.isLink := by
  have ends := find_eq_ok.mp found
  have ends' := directory_eq_ok.mp leads
  have passable := passable_of_resolve ends
  obtain ⟨front, name, eq⟩ :=
    List.eq_nil_or_concat (pieces path) |>.resolve_left (pieces_ne_nil passable.filled)
  rw [resolve_of_passable passable, eq, List.concat_eq_append] at ends ends'
  cases walk_append t linkLimit (origin cwd path) front with
  | nowhere _ fails =>
      obtain ⟨e, fails⟩ := fails false [name] (by simp)
      rw [fails] at ends
      cases ends
  | there above budget leads onward =>
      have inside : t.node? above = some .directory := (node?_of_walk leads).symm
      rw [onward _ [name] (by simp)] at ends ends'
      cases t.meets above name with
      | dot eq =>
          subst eq
          rw [walk_dot inside, walk_nil, inside] at ends
          cases ends
          exact absurd rfl leaf
      | up eq =>
          subst eq
          rw [walk_up inside, walk_nil] at ends ends'
          cases ends.symm.trans ends'
          exact absurd rfl leaf
      | long other long =>
          rw [walk_long inside other long] at ends
          cases ends
      | missing ordinary at_ =>
          rw [walk_missing inside ordinary at_] at ends
          cases ends
      | link ordinary target at_ =>
          rw [walk_link inside ordinary at_] at ends
          cases ends
          rfl
      | node ordinary m at_ direct =>
          rw [walk_node inside ordinary at_ direct, walk_nil] at ends ends'
          cases ends.symm.trans ends'
          exact absurd rfl leaf

/-- Paths with the same names, up to dots before the last, lead to the same place. -/
theorem resolve_congr {path' : String} (passable : Passable path) (passable' : Passable path')
    (same : origin cwd path = origin cwd path') {front front' : List String}
    (eq : pieces path = front ++ [name]) (eq' : pieces path' = front' ++ [name])
    (names : front.filter (· ≠ ".") = front'.filter (· ≠ ".")) (follow : Bool) :
    t.resolve cwd follow path = t.resolve cwd follow path' := by
  rw [resolve_of_passable passable, resolve_of_passable passable', same, eq, eq']
  have passed (front : List String) : t.walk follow linkLimit (origin cwd path') (front ++ [name]) =
      t.walk follow linkLimit (origin cwd path') (front.filter (· ≠ ".") ++ [name]) :=
    walk_filter t follow linkLimit (origin cwd path') [] front (by simp)
  rw [passed front, passed front', names]

end

end DecodePipeline.FileTree
