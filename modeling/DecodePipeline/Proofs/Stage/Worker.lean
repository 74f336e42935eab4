import DecodePipeline.Proofs.Queue.Basic
import DecodePipeline.Proofs.Stage.Attempts
import DecodePipeline.Stage.Worker

/-!
What one step of a worker can be. Only a worker that has not ended steps; it takes the
oldest item from the work queue, makes attempts on it, counts its fate once, and hands a set
to the next queue.
-/

namespace DecodePipeline.Worker

inductive Moves (w : World) (s : Settings) (hub : Hub) (x : Worker) : Hub → Worker → Prop where
  | leave : x.point = .idle → (hub.cancelled ∨ hub.work.closed ∧ hub.work.buffer = []) →
      Moves w s hub x hub { x with point := .ended (.returned x.handed) }
  | take (item : WorkItem) (rest : List WorkItem) : x.point = .idle → hub.cancelled = false →
      hub.work.buffer = item :: rest →
      Moves w s hub x { hub with work := { hub.work with buffer := rest } }
        { x with point := .busy (.begin item) }
  | attempt {hub' : Hub} (a a' : Attempts) : x.point = .busy a →
      a.Moves w s.retry s.transformTimeout hub hub' a' → a'.outcome? = none →
      Moves w s hub x hub' { x with point := .busy a' }
  | transformed {hub' : Hub} (a : Attempts) (set : ArtifactSet) : x.point = .busy a →
      a.Moves w s.retry s.transformTimeout hub hub' (.ended (.transformed set)) →
      Moves w s hub x hub' { x with point := .handing set }
  | failed {hub' : Hub} (a : Attempts) (item : WorkItem) (fault : Fault) : x.point = .busy a →
      a.Moves w s.retry s.transformTimeout hub hub' (.ended (.failed item fault)) →
      Moves w s hub x (hub'.count (·.addFailed item fault)) { x with point := .idle }
  | abandon {hub' : Hub} (a : Attempts) : x.point = .busy a →
      a.Moves w s.retry s.transformTimeout hub hub' (.ended .cancelled) →
      Moves w s hub x (hub'.count Stats.addAbandoned)
        { x with point := .ended (.returned x.handed) }
  | panic {hub' : Hub} (a : Attempts) : x.point = .busy a →
      a.Moves w s.retry s.transformTimeout hub hub' (.ended .panicked) →
      Moves w s hub x hub' (x.cutOff .panicked)
  | abandonSet (set : ArtifactSet) : x.point = .handing set → hub.cancelled →
      Moves w s hub x (hub.count Stats.addAbandoned) { x with point := .ended (.returned x.handed) }
  | hand (set : ArtifactSet) : x.point = .handing set → hub.cancelled = false →
      hub.artifacts.closed = false → hub.artifacts.buffer.length < hub.artifacts.capacity →
      Moves w s hub x
        ({ hub with artifacts := { hub.artifacts with buffer := hub.artifacts.buffer ++ [set] } }.count
          Stats.addTransformed) { x with handed := x.handed + 1, point := .idle }
  | refused (set : ArtifactSet) : x.point = .handing set → hub.cancelled = false →
      hub.artifacts.closed → Moves w s hub x hub { x with point := .ended (.faulted .queueClosed) }

variable {w : World} {s : Settings} {hub hub' : Hub} {x x' : Worker}

theorem moves_of_step (h : x.step w s hub = some (hub', x')) : x.Moves w s hub hub' x' := by
  unfold step at h
  split at h
  · next idle =>
      split at h
      · next cancelled => cases h; exact .leave idle (.inl cancelled)
      · next live =>
          have live : hub.cancelled = false := by simpa using live
          cases buffer : hub.work.buffer with
          | nil =>
              cases closed : hub.work.closed with
              | false => simp [Queue.tryPop_of_empty buffer closed] at h
              | true =>
                  simp only [Queue.tryPop_of_ended buffer closed] at h
                  cases h
                  exact .leave idle (.inr ⟨closed, buffer⟩)
          | cons item rest =>
              simp only [Queue.tryPop_of_cons buffer] at h
              cases h
              exact .take item rest idle live buffer
  · next a busy =>
      simp only [Option.map_eq_some_iff] at h
      obtain ⟨⟨hub₁, a₁⟩, stepped, after⟩ := h
      have moved := Attempts.moves_of_step stepped
      cases a₁ with
      | waiting | calling | pausing => cases after; exact .attempt a _ busy moved rfl
      | ended outcome =>
          cases outcome with
          | transformed set => cases after; exact .transformed a set busy moved
          | failed item fault => cases after; exact .failed a item fault busy moved
          | cancelled => cases after; exact .abandon a busy moved
          | panicked => cases after; exact .panic a busy moved
          | aborted => cases moved
  · next set handing =>
      split at h
      · next cancelled => cases h; exact .abandonSet set handing cancelled
      · next live =>
          have live : hub.cancelled = false := by simpa using live
          cases closed : hub.artifacts.closed with
          | true =>
              simp only [Queue.tryPush_of_closed closed] at h
              cases h
              exact .refused set handing live closed
          | false =>
              obtain room | full := Nat.lt_or_ge hub.artifacts.buffer.length hub.artifacts.capacity
              · simp only [Queue.tryPush_of_room closed room] at h
                cases h
                exact .hand set handing live closed room
              · simp [Queue.tryPush_of_full closed full] at h
  · simp at h

def Over (x : Worker) : Prop := ∃ e, x.point = .ended e

theorem Moves.not_over (h : x.Moves w s hub hub' x') : ¬x.Over := by
  rintro ⟨e, ended⟩
  cases h with
  | leave at_ | take _ _ at_ | attempt _ _ at_ | transformed _ _ at_ | failed _ _ _ at_
  | abandon _ at_
  | panic _ at_ | abandonSet _ at_ | hand _ at_ | refused _ at_ => simp [ended] at at_

theorem Moves.kept (h : x.Moves w s hub hub' x') : hub.Kept hub' := by
  cases h with
  | leave | refused => exact .refl _
  | take _ _ _ _ buffer => exact Hub.kept_takeWork buffer
  | attempt _ _ _ moved | transformed _ _ _ moved | panic _ _ moved => exact moved.alike.kept
  | failed _ _ _ _ moved | abandon _ _ moved => exact moved.alike.kept.trans (Hub.kept_count _ _)
  | abandonSet => exact Hub.kept_count _ _
  | hand set _ _ _ room => exact (Hub.kept_putSet set room).trans (Hub.kept_count _ _)

theorem Moves.scans (h : x.Moves w s hub hub' x') : hub'.scans = hub.scans := by
  cases h with
  | leave | take | abandonSet | hand | refused => rfl
  | attempt _ _ _ moved | transformed _ _ _ moved | panic _ _ moved => exact moved.alike.scans
  | failed _ _ _ _ moved | abandon _ _ moved => exact moved.alike.scans

/-- A worker puts nothing into the work queue and does not close it. -/
theorem Moves.work (h : x.Moves w s hub hub' x') :
    hub'.work.closed = hub.work.closed ∧ (hub.work.buffer = [] → hub'.work.buffer = []) := by
  cases h with
  | leave | refused | abandonSet | hand => exact ⟨rfl, id⟩
  | take _ _ _ _ buffer => exact ⟨rfl, fun empty => absurd (buffer.symm.trans empty) (by simp)⟩
  | attempt _ _ _ moved | transformed _ _ _ moved | panic _ _ moved =>
      rw [moved.alike.work]
      exact ⟨rfl, id⟩
  | failed _ _ _ _ moved | abandon _ _ moved =>
      simp only [Hub.count, moved.alike.work]
      exact ⟨trivial, id⟩

def isCalling (x : Worker) : Bool :=
  match x.point with
  | .busy a => a.isCalling
  | _ => false

theorem Moves.slots (h : x.Moves w s hub hub' x') :
    hub'.slots + x'.isCalling.toNat = hub.slots + x.isCalling.toNat := by
  cases h with
  | leave at_ | take _ _ at_ | abandonSet _ at_ | hand _ at_ | refused _ at_ =>
      simp [isCalling, at_, Hub.count, Attempts.begin, Attempts.isCalling]
  | attempt _ _ at_ moved | transformed _ _ at_ moved | failed _ _ _ at_ moved | abandon _ at_ moved
  | panic _ at_ moved =>
      simpa [isCalling, at_, Hub.count, cutOff, Attempts.isCalling] using moved.slots

def Held (hub : Hub) (x : Worker) : Prop :=
  (∃ set, x.point = .handing set) ∧ hub.cancelled = false ∧ hub.artifacts.closed = false ∧
    hub.artifacts.capacity ≤ hub.artifacts.size

theorem Moves.not_held (h : x.Moves w s hub hub' x') : ¬x.Held hub := by
  rintro ⟨⟨set, at_⟩, live, open_, full⟩
  unfold Queue.size at full
  cases h with
  | hand _ _ _ _ room => omega
  | abandonSet _ _ cancelled => rw [live] at cancelled; contradiction
  | refused _ _ _ closed => rw [open_] at closed; contradiction
  | leave at' | take _ _ at' | attempt _ _ at' | transformed _ _ at' | failed _ _ _ at'
  | abandon _ at' | panic _ at' =>
      rw [at_] at at'
      cases at'

/-- A worker that cannot go on waits for work, for a slot or a point in time, or for room,
or has ended. -/
theorem step_eq_none (h : x.step w s hub = none) :
    (x.point = .idle ∧ hub.cancelled = false ∧ hub.work.buffer = [] ∧ hub.work.closed = false) ∨
      (∃ a, x.point = .busy a ∧ a.step w s.retry s.transformTimeout hub = none) ∨
      x.Held hub ∨ x.Over := by
  unfold step at h
  split at h
  · next idle =>
      split at h
      · simp at h
      · next live =>
          refine .inl ⟨idle, Bool.eq_false_iff.mpr live, ?_⟩
          cases buffer : hub.work.buffer with
          | nil =>
              cases closed : hub.work.closed with
              | false => exact ⟨rfl, rfl⟩
              | true => simp [Queue.tryPop_of_ended buffer closed] at h
          | cons item rest => simp [Queue.tryPop_of_cons buffer] at h
  · next a busy => exact .inr (.inl ⟨a, busy, Option.map_eq_none_iff.mp h⟩)
  · next set handing =>
      split at h
      · simp at h
      · next live =>
          refine .inr (.inr (.inl ⟨⟨set, handing⟩, Bool.eq_false_iff.mpr live, ?_⟩))
          cases closed : hub.artifacts.closed with
          | true => simp [Queue.tryPush_of_closed closed] at h
          | false =>
              refine ⟨rfl, Nat.le_of_not_lt fun room => ?_⟩
              simp [Queue.tryPush_of_room closed room] at h
  · next e ended => exact .inr (.inr (.inr ⟨e, ended⟩))

end DecodePipeline.Worker
