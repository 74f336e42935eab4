import DecodePipeline.Proofs.Queue.Basic
import DecodePipeline.Proofs.Stage.Hub
import DecodePipeline.Stage.Consumption

/-!
What one step of consumption can be. It takes the oldest set from the artifact queue, counts
the fate of each set that it takes once, and touches nothing else that other tasks use.
-/

namespace DecodePipeline.Consumption

inductive Moves (w : World) (hub : Hub) (c : Consumption) : Hub → Consumption → Prop where
  | take (set : ArtifactSet) (rest : List ArtifactSet) : c.point = .idle →
      hub.artifacts.buffer = set :: rest →
      Moves w hub c { hub with artifacts := { hub.artifacts with buffer := rest } }
        { c with taken := c.taken ++ [set], point := .checking set }
  | leave : c.point = .idle → hub.artifacts.closed → hub.artifacts.buffer = [] →
      Moves w hub c hub { c with point := .ended (.returned c.accepted) }
  | reject (set : ArtifactSet) (fault : Fault) : c.point = .checking set →
      Validation.check c.expectedFrames hub.isPresent set = .error fault →
      Moves w hub c (hub.count Stats.addRejected) { c with point := .idle }
  | reset (set : ArtifactSet) : c.point = .checking set →
      Validation.check c.expectedFrames hub.isPresent set = .ok () → c.wasReset = false →
      Moves w hub c { hub with rendererCalls := hub.rendererCalls ++ [.reset hub.now] }
        { c with point := .resetting set (dueAt hub.now w.reset.delay) w.reset.reply }
  | offer (set : ArtifactSet) : c.point = .checking set →
      Validation.check c.expectedFrames hub.isPresent set = .ok () → c.wasReset →
      Moves w hub c (c.offer w hub set).1 (c.offer w hub set).2
  | offerAfterReset (set : ArtifactSet) (due : Option Nat) (reply : Reply (List String) Unit) :
      c.point = .resetting set due reply → isDue hub.now due → reply ≠ .panics →
      Moves w hub c (c.offer w hub set).1 (c.offer w hub set).2
  | panic (set : ArtifactSet) (due : Option Nat) :
      (c.point = .resetting set due .panics ∨ c.point = .accepting set due .panics) →
      isDue hub.now due → Moves w hub c hub { c with point := .ended .panicked, lost := some set }
  | refuse (set : ArtifactSet) (due : Option Nat) (messages : List String) :
      c.point = .accepting set due (.fails messages) → isDue hub.now due →
      Moves w hub c (hub.count Stats.addRejected) { c with point := .idle }
  | accept (set : ArtifactSet) (due : Option Nat) : c.point = .accepting set due (.gives ()) →
      isDue hub.now due →
      Moves w hub c (hub.count Stats.addConsumed)
        { c with accepted := c.accepted + 1, point := .idle }

variable {w : World} {hub hub' : Hub} {c c' : Consumption}

theorem moves_of_step (h : c.step w hub = some (hub', c')) : c.Moves w hub hub' c' := by
  unfold step at h
  split at h
  · next idle =>
      cases buffer : hub.artifacts.buffer with
      | nil =>
          cases closed : hub.artifacts.closed with
          | false => simp [Queue.tryPop_of_empty buffer closed] at h
          | true =>
              simp only [Queue.tryPop_of_ended buffer closed] at h
              cases h
              exact .leave idle closed buffer
      | cons set rest =>
          simp only [Queue.tryPop_of_cons buffer] at h
          cases h
          exact .take set rest idle buffer
  · next set checking =>
      split at h
      · next fault invalid => cases h; exact .reject set fault checking invalid
      · next valid =>
          split at h
          · next before =>
              rw [Option.some.injEq, Prod.ext_iff] at h
              obtain ⟨rfl, rfl⟩ := h
              exact .offer set checking valid before
          · next first => cases h; exact .reset set checking valid (Bool.eq_false_iff.mpr first)
  · next set due reply at_ =>
      split at h
      · next now =>
          cases reply with
          | panics =>
              cases h
              simpa [cutOff, held?, at_] using Moves.panic set due (.inl at_) now
          | fails _ | gives _ =>
              simp only [Option.some.injEq, Prod.ext_iff] at h
              obtain ⟨rfl, rfl⟩ := h
              exact .offerAfterReset set due _ at_ now (by simp)
      · simp at h
  · next set due reply at_ =>
      split at h
      · next now =>
          cases reply with
          | panics =>
              cases h
              simpa [cutOff, held?, at_] using Moves.panic set due (.inr at_) now
          | fails messages => cases h; exact .refuse set due messages at_ now
          | gives _ => cases h; exact .accept set due at_ now
      · simp at h
  · simp at h

def Over (c : Consumption) : Prop := ∃ e, c.point = .ended e

theorem Moves.not_over (h : c.Moves w hub hub' c') : ¬c.Over := by
  rintro ⟨e, ended⟩
  cases h with
  | take _ _ at_ | leave at_ | reject _ _ at_ | reset _ at_ | offer _ at_
  | offerAfterReset _ _ _ at_
  | refuse _ _ _ at_ | accept _ _ at_ => simp [ended] at at_
  | panic _ _ at_ => obtain at_ | at_ := at_ <;> simp [ended] at at_

theorem Moves.kept (h : c.Moves w hub hub' c') : hub.Kept hub' := by
  cases h with
  | take _ _ _ buffer => exact Hub.kept_takeSet buffer
  | leave | panic => exact .refl _
  | reject | refuse | accept => exact Hub.kept_count _ _
  | reset | offer | offerAfterReset => exact ⟨rfl, rfl, rfl, rfl, id, rfl, id, id⟩

theorem Moves.work (h : c.Moves w hub hub' c') :
    hub'.work = hub.work ∧ hub'.slots = hub.slots := by
  cases h <;> exact ⟨rfl, rfl⟩

theorem Moves.scans (h : c.Moves w hub hub' c') : hub'.scans = hub.scans := by
  cases h <;> rfl

/-- Consumption waits for a set. -/
def Held (hub : Hub) (c : Consumption) : Prop :=
  c.point = .idle ∧ hub.artifacts.buffer = [] ∧ hub.artifacts.closed = false

theorem Moves.not_held (h : c.Moves w hub hub' c') : ¬c.Held hub := by
  rintro ⟨idle, empty, open_⟩
  cases h with
  | take _ _ _ buffer => rw [empty] at buffer; cases buffer
  | leave _ closed => rw [open_] at closed; contradiction
  | panic _ _ at_ => obtain at_ | at_ := at_ <;> rw [idle] at at_ <;> cases at_
  | reject _ _ at_ | reset _ at_ | offer _ at_ | offerAfterReset _ _ _ at_ | refuse _ _ _ at_
  | accept _ _ at_ =>
      rw [idle] at at_
      cases at_

/-- Consumption that cannot go on waits for a set or a point in time, or has ended. -/
theorem step_eq_none (h : c.step w hub = none) :
    (∃ set due reply, (c.point = .resetting set due reply ∨ c.point = .accepting set due reply) ∧
        isDue hub.now due = false) ∨ c.Held hub ∨ c.Over := by
  unfold step at h
  split at h
  · next idle =>
      refine .inr (.inl ⟨idle, ?_⟩)
      cases buffer : hub.artifacts.buffer with
      | nil =>
          cases closed : hub.artifacts.closed with
          | false => exact ⟨rfl, rfl⟩
          | true => simp [Queue.tryPop_of_ended buffer closed] at h
      | cons set rest => simp [Queue.tryPop_of_cons buffer] at h
  · split at h
    · simp at h
    · split at h <;> simp at h
  · next set due reply at_ =>
      split at h
      · split at h <;> simp at h
      · next later => exact .inl ⟨set, due, reply, .inl at_, Bool.eq_false_iff.mpr later⟩
  · next set due reply at_ =>
      split at h
      · split at h <;> simp at h
      · next later => exact .inl ⟨set, due, reply, .inr at_, Bool.eq_false_iff.mpr later⟩
  · next e ended => exact .inr (.inr ⟨e, ended⟩)

end DecodePipeline.Consumption
