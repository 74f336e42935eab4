import DecodePipeline.Proofs.Stage.Hub
import DecodePipeline.Stage.Attempts

/-!
What one step of the attempts on an item can be. A step never touches the queues, the
counters, the clock or the token; it keeps the item until the attempts are over, and it
takes or frees a slot exactly when a decoder call begins or ends.
-/

namespace DecodePipeline

namespace Attempts

/-- The call that the decoder makes for an item when the next attempt on it begins. -/
def nextCall (w : World) (timeout : Span) (hub : Hub) (item : WorkItem) : Behaviour Fault Decoded :=
  limited timeout (w.decoder item.id (hub.callsFor item.id))

/-- The reply of a running call has come, and no cancellation is noticed before it. -/
def Replies (hub : Hub) (due : Option Nat) (heeds : Bool) : Prop :=
  isDue hub.now due ∧ (heeds && hub.cancelled) = false

inductive Moves (w : World) (policy : RetryPolicy) (timeout : Span) (hub : Hub) :
    Attempts → Hub → Attempts → Prop where
  | call (item : WorkItem) : hub.cancelled = false → 0 < hub.slots →
      Moves w policy timeout hub (.waiting item) (hub.beginCall item)
        (.calling item (dueAt hub.now (nextCall w timeout hub item).delay)
          (w.decoder item.id (hub.callsFor item.id)).heeds (nextCall w timeout hub item).reply)
  | giveUpWaiting (item : WorkItem) : hub.cancelled →
      Moves w policy timeout hub (.waiting item) hub (.ended .cancelled)
  | heed (item : WorkItem) (due : Option Nat) (reply : Reply Fault Decoded) : hub.cancelled →
      Moves w policy timeout hub (.calling item due true reply) hub.endCall (.ended .cancelled)
  | panic (item : WorkItem) (due : Option Nat) (heeds : Bool) : Replies hub due heeds →
      Moves w policy timeout hub (.calling item due heeds .panics) hub.endCall (.ended .panicked)
  | replyCancelled (item : WorkItem) (due : Option Nat) (heeds : Bool) : Replies hub due heeds →
      Moves w policy timeout hub (.calling item due heeds (.fails .cancelled)) hub.endCall
        (.ended .cancelled)
  | retry (item : WorkItem) (due : Option Nat) (heeds : Bool) (fault : Fault) :
      Replies hub due heeds → fault.isCancelled = false →
      (fault.isRetryable && policy.shouldRetry item.attempt) = true →
      Moves w policy timeout hub (.calling item due heeds (.fails fault)) hub.endCall
        (.pausing (item.noted fault.message) (hub.now + policy.delayMs item.attempt))
  | fail (item : WorkItem) (due : Option Nat) (heeds : Bool) (fault : Fault) :
      Replies hub due heeds → fault.isCancelled = false →
      (fault.isRetryable && policy.shouldRetry item.attempt) = false →
      Moves w policy timeout hub (.calling item due heeds (.fails fault)) hub.endCall
        (.ended (.failed ((item.noted fault.message).failed fault.message) fault))
  | succeed (item : WorkItem) (due : Option Nat) (heeds : Bool) (out : Decoded) :
      Replies hub due heeds →
      Moves w policy timeout hub (.calling item due heeds (.gives out))
        { hub.endCall with present := hub.endCall.present ++ out.created }
        (.ended (.transformed (ArtifactSet.ofItem item.transformed out.files Instant.epoch)))
  | resume (item : WorkItem) (due : Nat) : hub.cancelled = false → due ≤ hub.now →
      Moves w policy timeout hub (.pausing item due) hub (.waiting item.begun)
  | giveUpPausing (item : WorkItem) (due : Nat) : hub.cancelled →
      Moves w policy timeout hub (.pausing item due) hub (.ended .cancelled)

variable {w : World} {policy : RetryPolicy} {timeout : Span} {hub hub' : Hub} {a a' : Attempts}

theorem moves_of_step (h : a.step w policy timeout hub = some (hub', a')) :
    Moves w policy timeout hub a hub' a' := by
  cases a with
  | waiting item =>
      simp only [step] at h
      split at h
      · next cancelled => cases h; exact .giveUpWaiting item cancelled
      · next live =>
          split at h
          · simp at h
          · next free =>
              cases h
              exact .call item (by simpa using live) (Nat.pos_of_ne_zero free)
  | calling item due heeds reply =>
      simp only [step] at h
      split at h
      · next heeded =>
          simp only [Bool.and_eq_true] at heeded
          obtain ⟨rfl, cancelled⟩ := heeded
          cases h
          exact .heed item due reply cancelled
      · next unheeded =>
        split at h
        · next now =>
            have now : Replies hub due heeds := ⟨now, by simpa using unheeded⟩
            cases reply with
            | panics => cases h; exact .panic item due heeds now
            | gives out => cases h; exact .succeed item due heeds out now
            | fails fault =>
                simp only [afterReply, afterFault] at h
                split at h
                · next cancelled =>
                    cases h
                    cases fault <;> simp [Fault.isCancelled] at cancelled
                    exact .replyCancelled item due heeds now
                · next other =>
                    have other : fault.isCancelled = false := by simpa using other
                    split at h
                    · next again =>
                        cases h
                        exact .retry item due heeds fault now other again
                    · next last =>
                        cases h
                        exact .fail item due heeds fault now other (by simpa using last)
        · simp at h
  | pausing item due =>
      simp only [step] at h
      split at h
      · next cancelled => cases h; exact .giveUpPausing item due cancelled
      · next live =>
          split at h
          · next now => cases h; exact .resume item due (by simpa using live) now
          · simp at h
  | ended outcome => simp [step] at h

theorem Moves.alike (h : Moves w policy timeout hub a hub' a') : hub.Alike hub' := by
  cases h <;> exact ⟨rfl, rfl, rfl, rfl, rfl, rfl⟩

def isCalling : Attempts → Bool
  | .calling _ _ _ _ => true
  | _ => false

/-- A slot is held exactly while a call runs. -/
theorem Moves.slots (h : Moves w policy timeout hub a hub' a') :
    hub'.slots + a'.isCalling.toNat = hub.slots + a.isCalling.toNat := by
  cases h with
  | call item _ free =>
      simp only [Hub.beginCall, isCalling, Bool.toNat_true, Bool.toNat_false]
      omega
  | giveUpWaiting | resume | giveUpPausing => rfl
  | heed | panic | replyCancelled | retry | fail | succeed => simp [Hub.endCall, isCalling]

/-- A step is made on an item, and it stays that item until its fate is decided. -/
theorem Moves.item (h : Moves w policy timeout hub a hub' a') :
    ∃ item, a.item? = some item ∧
      match a' with
      | .waiting item' | .calling item' _ _ _ | .pausing item' _ => item'.id = item.id
      | .ended (.transformed set) => set.itemId = item.id
      | .ended (.failed item' _) => item'.id = item.id
      | .ended .cancelled | .ended .panicked | .ended .aborted => True := by
  cases h with
  | call item | resume item | retry item | fail item | succeed item => exact ⟨item, rfl, rfl⟩
  | giveUpWaiting item | heed item | panic item | replyCancelled item | giveUpPausing item =>
      exact ⟨item, rfl, trivial⟩

/-- Attempts that cannot go on wait for a slot or for a point in time. -/
theorem step_eq_none (h : a.step w policy timeout hub = none) :
    (∃ item, a = .waiting item ∧ hub.slots = 0) ∨
      (∃ item due heeds reply, a = .calling item due heeds reply ∧ isDue hub.now due = false) ∨
      (∃ item due, a = .pausing item due ∧ hub.now < due) ∨ ∃ outcome, a = .ended outcome := by
  cases a with
  | waiting item =>
      simp only [step] at h
      split at h
      · simp at h
      · split at h
        · next none => exact .inl ⟨item, rfl, none⟩
        · simp at h
  | calling item due heeds reply =>
      simp only [step] at h
      split at h
      · simp at h
      · split at h
        · simp at h
        · next later => exact .inr (.inl ⟨item, due, heeds, reply, rfl, by simpa using later⟩)
  | pausing item due =>
      simp only [step] at h
      split at h
      · simp at h
      · split at h
        · simp at h
        · next later => exact .inr (.inr (.inl ⟨item, due, rfl, by omega⟩))
  | ended outcome => exact .inr (.inr (.inr ⟨outcome, rfl⟩))

end Attempts

end DecodePipeline
