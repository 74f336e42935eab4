import DecodePipeline.Proofs.Run.Change

/-!
The course of a run: its actions one after another, and what is noted on the way. Here too
the tasks act in any order, and time passes whether or not a task could go on.
-/

namespace DecodePipeline.Run

variable {w : World} {r r' r'' : Run}

/-- The run after one action, if it can happen. -/
def happen (w : World) (r : Run) : Action → Option Run
  | .cancel => some r.cancel
  | .tick time => if r.hub.now ≤ time then some (setClock time r) else none
  | a => r.stepTask w a

/-- The run after some actions, in their order. -/
def replay (w : World) (r : Run) (actions : List Action) : Option Run :=
  actions.foldlM (happen w) r

/-- What is noted on the way, action by action. -/
def chronicle {β : Type} (w : World) (note : Run → Action → Run → List β) :
    Run → List Action → List β
  | _, [] => []
  | r, a :: actions =>
    match r.happen w a with
    | some r' => note r a r' ++ chronicle w note r' actions
    | none => []

/-- All that an action can do: cancel the run, move the clock, or let a task make a step. -/
theorem cases_of_happen {a : Action} (h : r.happen w a = some r') :
    a = .cancel ∧ r' = r.cancel ∨
      (∃ time, a = .tick time ∧ r.hub.now ≤ time ∧ r' = setClock time r) ∨
      r.stepTask w a = some r' := by
  cases a with
  | cancel => exact .inl ⟨rfl, (Option.some.inj h).symm⟩
  | tick time =>
      simp only [happen] at h
      obtain ⟨later, eq⟩ := Option.ite_none_right_eq_some.mp h
      exact .inr (.inl ⟨time, rfl, later, (Option.some.inj eq).symm⟩)
  | supervisor | discovery | worker | lone | consumption | collector => exact .inr (.inr h)

theorem change_of_happen {a : Action} (h : r.happen w a = some r') : Change w r r' := by
  obtain ⟨_, rfl⟩ | ⟨time, _, later, rfl⟩ | stepped := cases_of_happen h
  · exact .cancel
  · exact .clock time later
  · exact .task a stepped

/-- The program's clock moves less freely. -/
theorem happen_of_step {a : Action} (h : r.step w a = some r') : r.happen w a = some r' := by
  cases a with
  | cancel => exact h
  | tick time =>
      simp only [step] at h
      obtain ⟨⟨_, later, _⟩, eq⟩ := Option.ite_none_right_eq_some.mp h
      exact (if_pos (Nat.le_of_lt later)).trans eq
  | supervisor | discovery | worker | lone | consumption | collector => exact h

theorem Change.happens (h : Change w r r') : ∃ a, r.happen w a = some r' := by
  cases h with
  | task a stepped =>
      refine ⟨a, ?_⟩
      cases a with
      | cancel | tick => cases stepped
      | supervisor | discovery | worker | lone | consumption | collector => exact stepped
  | cancel => exact ⟨.cancel, rfl⟩
  | clock time later => exact ⟨.tick time, if_pos later⟩

theorem replay_cons {a : Action} {actions : List Action} :
    r.replay w (a :: actions) = some r' ↔
      ∃ r₁, r.happen w a = some r₁ ∧ r₁.replay w actions = some r' := by
  simp [replay, List.foldlM_cons, Option.bind_eq_some_iff]

theorem replay_append {before after : List Action} :
    r.replay w (before ++ after) = some r' ↔
      ∃ r₁, r.replay w before = some r₁ ∧ r₁.replay w after = some r' := by
  simp [replay, List.foldlM_append, Option.bind_eq_some_iff]

theorem replay_of_follow {actions : List Action} (h : r.follow w actions = some r') :
    r.replay w actions = some r' := by
  induction actions generalizing r with
  | nil => exact h
  | cons a actions ih =>
      obtain ⟨r₁, stepped, rest⟩ := Option.bind_eq_some_iff.mp h
      exact replay_cons.mpr ⟨r₁, happen_of_step stepped, ih rest⟩

theorem reaches_of_replay {actions : List Action} (h : r.replay w actions = some r') :
    Relation.ReflTransGen (Change w) r r' := by
  induction actions generalizing r with
  | nil =>
      obtain rfl : r = r' := Option.some.inj h
      exact .refl
  | cons a actions ih =>
      obtain ⟨r₁, happens, rest⟩ := replay_cons.mp h
      exact .head (change_of_happen happens) (ih rest)

/-- Every run has a course. -/
theorem exists_replay (h : Relation.ReflTransGen (Change w) r r') :
    ∃ actions, r.replay w actions = some r' := by
  induction h using Relation.ReflTransGen.head_induction_on with
  | refl => exact ⟨[], rfl⟩
  | head change _ ih =>
      obtain ⟨a, happens⟩ := change.happens
      obtain ⟨actions, rest⟩ := ih
      exact ⟨a :: actions, replay_cons.mpr ⟨_, happens, rest⟩⟩

theorem chronicle_cons {β : Type} {note : Run → Action → Run → List β} {a : Action}
    (happens : r.happen w a = some r') (actions : List Action) :
    chronicle w note r (a :: actions) = note r a r' ++ chronicle w note r' actions := by
  simp only [chronicle, happens]

theorem chronicle_append {β : Type} {note : Run → Action → Run → List β}
    {before : List Action} (course : r.replay w before = some r') (after : List Action) :
    chronicle w note r (before ++ after) =
      chronicle w note r before ++ chronicle w note r' after := by
  induction before generalizing r with
  | nil =>
      obtain rfl : r = r' := Option.some.inj course
      rfl
  | cons a before ih =>
      obtain ⟨r₁, happens, rest⟩ := replay_cons.mp course
      rw [List.cons_append, chronicle_cons happens, chronicle_cons happens, ih rest,
        List.append_assoc]

end DecodePipeline.Run
