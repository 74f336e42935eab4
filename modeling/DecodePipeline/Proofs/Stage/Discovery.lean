import DecodePipeline.Proofs.Queue.Basic
import DecodePipeline.Proofs.Source
import DecodePipeline.Proofs.Stage.Hub
import DecodePipeline.Stage.Discovery

/-!
What one step of discovery can be. Discovery alone publishes, one item a step; it closes the
work queue when nothing more can come from it, and touches nothing else that other tasks
use.
-/

namespace DecodePipeline.Discovery

/-- The hub that discovery leaves behind when it ends by itself. -/
def leftBehind (d : Discovery) (hub : Hub) : Hub :=
  if d.mode = .batch ∨ d.limitReached then { hub with work := hub.work.close } else hub

/-- A scan is over: all of it or all that may be is published, or a later scan failed. -/
def ScanOver (hub : Hub) (d : Discovery) : Prop :=
  (∃ rest, d.point = .publishing rest ∧ (rest = [] ∨ d.limitReached)) ∨
    ∃ due messages, d.point = .listing due (.fails messages) ∧ isDue hub.now due ∧ d.scanned

inductive Moves (w : World) (hub : Hub) (d : Discovery) : Hub → Discovery → Prop where
  | scan : d.point = .scanning →
      Moves w hub d { hub with scans := hub.scans ++ [hub.now] }
        { d with
          point := .listing (dueAt hub.now (w.catalog hub.scans.length).delay)
            (w.catalog hub.scans.length).reply }
  | panic (due : Option Nat) : d.point = .listing due .panics → isDue hub.now due →
      Moves w hub d hub { d with point := .ended .panicked }
  | firstScanFails (due : Option Nat) (messages : List String) :
      d.point = .listing due (.fails messages) → isDue hub.now due → d.scanned = false →
      Moves w hub d (d.leftBehind hub)
        { d with point := .ended (.faulted (.discovery (Failure.chain messages))) }
  | list (due : Option Nat) (sources : List SourceEntry) : d.point = .listing due (.gives sources) →
      isDue hub.now due → Moves w hub d hub { d with point := .publishing (d.fresh sources) }
  | publish (s : SourceEntry) (rest : List SourceEntry) : d.point = .publishing (s :: rest) →
      d.limitReached = false → hub.cancelled = false → hub.work.closed = false →
      hub.work.buffer.length < hub.work.capacity →
      Moves w hub d
        ({ hub with work := { hub.work with buffer := hub.work.buffer ++ [workItem s] } }.count
          Stats.addDiscovered)
        { d with published := d.published ++ [s.id], point := .publishing rest }
  | giveUp (s : SourceEntry) (rest : List SourceEntry) : d.point = .publishing (s :: rest) →
      d.limitReached = false → hub.cancelled →
      Moves w hub d (d.leftBehind hub) { d with point := .ended (.faulted .cancelled) }
  | refused (s : SourceEntry) (rest : List SourceEntry) : d.point = .publishing (s :: rest) →
      d.limitReached = false → hub.cancelled = false → hub.work.closed →
      Moves w hub d (d.leftBehind hub) { d with point := .ended (.faulted .queueClosed) }
  | complete : d.ScanOver hub → (d.mode = .batch ∨ d.limitReached) →
      Moves w hub d { hub with work := hub.work.close }
        { d with scanned := true, point := .ended (.returned d.published.length) }
  | rest (interval : Span) : d.ScanOver hub → d.mode = .poll interval → d.limitReached = false →
      Moves w hub d hub { d with scanned := true, point := .resting (hub.now + interval.millis) }
  | stop (due : Nat) : d.point = .resting due → hub.cancelled →
      Moves w hub d (d.leftBehind hub) { d with point := .ended (.returned d.published.length) }
  | wake (due : Nat) : d.point = .resting due → hub.cancelled = false → due ≤ hub.now →
      Moves w hub d hub { d with point := .scanning }

variable {w : World} {hub hub' : Hub} {d d' : Discovery}

theorem finish_eq (d : Discovery) (hub : Hub) (ending : Ending Nat) :
    d.finish hub ending = (d.leftBehind hub, { d with point := .ended ending }) := rfl

theorem leftBehind_of_last (last : d.mode = .batch ∨ d.limitReached) :
    d.leftBehind hub = { hub with work := hub.work.close } :=
  if_pos last

theorem moves_of_afterScan (finished : d.ScanOver hub) (h : d.afterScan hub = (hub', d')) :
    d.Moves w hub hub' d' := by
  -- noting that a scan has succeeded changes neither the mode nor the limit
  have completes (last : d.mode = .batch ∨ d.limitReached)
      (h : { d with scanned := true }.finish hub (.returned d.published.length) = (hub', d')) :
      d.Moves w hub hub' d' := by
    have hub_eq : { d with scanned := true }.leftBehind hub = _ := leftBehind_of_last last
    rw [finish_eq, hub_eq] at h
    obtain ⟨rfl, rfl⟩ := Prod.mk.inj h
    exact .complete finished last
  unfold afterScan at h
  dsimp only at h
  split at h
  · next mode => exact completes (.inl mode) h
  · next interval mode =>
      split at h
      · next reached => exact completes (.inr reached) h
      · next below =>
          obtain ⟨rfl, rfl⟩ := Prod.mk.inj h
          exact .rest interval finished mode (Bool.eq_false_iff.mpr below)

theorem moves_of_step (h : d.step w hub = some (hub', d')) : d.Moves w hub hub' d' := by
  unfold step at h
  split at h
  · next at_ => cases h; exact .scan at_
  · next due reply at_ =>
      split at h
      · next now =>
          cases reply with
          | panics => cases h; exact .panic due at_ now
          | gives sources => cases h; exact .list due sources at_ now
          | fails messages =>
              simp only [afterFailedScan, Option.some.injEq] at h
              split at h
              · next scanned => exact moves_of_afterScan (.inr ⟨due, messages, at_, now, scanned⟩) h
              · next first =>
                  simp only [finish_eq, Prod.mk.injEq] at h
                  obtain ⟨rfl, rfl⟩ := h
                  exact .firstScanFails due messages at_ now (by simpa using first)
      · simp at h
  · next at_ => exact moves_of_afterScan (.inl ⟨[], at_, .inl rfl⟩) (Option.some.inj h)
  · next s rest at_ =>
      split at h
      · next reached =>
          exact moves_of_afterScan (.inl ⟨s :: rest, at_, .inr reached⟩) (Option.some.inj h)
      · next below =>
          have below : d.limitReached = false := by simpa using below
          split at h
          · next cancelled => cases h; exact .giveUp s rest at_ below cancelled
          · next live =>
              have live : hub.cancelled = false := by simpa using live
              cases closed : hub.work.closed with
              | true =>
                  simp only [Queue.tryPush_of_closed closed] at h
                  cases h
                  exact .refused s rest at_ below live closed
              | false =>
                  obtain room | full := Nat.lt_or_ge hub.work.buffer.length hub.work.capacity
                  · simp only [Queue.tryPush_of_room closed room] at h
                    cases h
                    exact .publish s rest at_ below live closed room
                  · simp [Queue.tryPush_of_full closed full] at h
  · next due at_ =>
      split at h
      · next cancelled => cases h; exact .stop due at_ cancelled
      · next live =>
          split at h
          · next now => cases h; exact .wake due at_ (by simpa using live) now
          · simp at h
  · simp at h

def Over (d : Discovery) : Prop := ∃ e, d.point = .ended e

theorem Moves.not_over (h : d.Moves w hub hub' d') : ¬d.Over := by
  rintro ⟨e, ended⟩
  cases h with
  | complete finished _ | rest _ finished _ _ =>
      obtain ⟨_, at_, _⟩ | ⟨_, _, at_, _⟩ := finished <;> simp [ended] at at_
  | scan at_ | panic _ at_ | firstScanFails _ _ at_ | list _ _ at_ | publish _ _ at_
  | giveUp _ _ at_
  | refused _ _ at_ | stop _ at_ | wake _ at_ => simp [ended] at at_

theorem Moves.fixed (h : d.Moves w hub hub' d') : d'.mode = d.mode ∧ d'.maxItems = d.maxItems := by
  cases h <;> exact ⟨rfl, rfl⟩

theorem leftBehind_kept (d : Discovery) (hub : Hub) : hub.Kept (d.leftBehind hub) := by
  simp only [leftBehind]
  split
  · exact ⟨rfl, rfl, rfl, rfl, fun _ => rfl, rfl, id, id⟩
  · exact .refl _

theorem leftBehind_same (d : Discovery) (hub : Hub) :
    (d.leftBehind hub).scans = hub.scans ∧ (d.leftBehind hub).work.buffer = hub.work.buffer ∧
      (d.leftBehind hub).stats = hub.stats := by
  simp only [leftBehind]
  split <;> exact ⟨rfl, rfl, rfl⟩

theorem Moves.kept (h : d.Moves w hub hub' d') : hub.Kept hub' := by
  cases h with
  | scan => exact ⟨rfl, rfl, rfl, rfl, id, rfl, id, id⟩
  | panic | list | rest | wake => exact .refl _
  | firstScanFails | giveUp | refused | stop => exact leftBehind_kept d hub
  | publish s _ _ _ _ _ room => exact (Hub.kept_putWork _ room).trans (Hub.kept_count _ _)
  | complete => exact ⟨rfl, rfl, rfl, rfl, fun _ => rfl, rfl, id, id⟩

theorem Moves.artifacts (h : d.Moves w hub hub' d') :
    hub'.artifacts = hub.artifacts ∧ hub'.slots = hub.slots := by
  cases h with
  | firstScanFails | giveUp | refused | stop => simp only [leftBehind]; split <;> exact ⟨rfl, rfl⟩
  | scan | panic | list | rest | wake | publish | complete => exact ⟨rfl, rfl⟩

theorem Moves.calls (h : d.Moves w hub hub' d') :
    hub'.decoderCalls = hub.decoderCalls ∧ hub'.rendererCalls = hub.rendererCalls := by
  cases h with
  | firstScanFails | giveUp | refused | stop => simp only [leftBehind]; split <;> exact ⟨rfl, rfl⟩
  | scan | panic | list | rest | wake | publish | complete => exact ⟨rfl, rfl⟩

/-- Discovery closes the work queue with its last step only. -/
theorem Moves.ended_of_closed (h : d.Moves w hub hub' d') (open_ : hub.work.closed = false)
    (closed : hub'.work.closed) : d'.Over := by
  cases h with
  | firstScanFails | giveUp | refused | stop | complete | panic => exact ⟨_, rfl⟩
  | scan | list | rest | wake | publish =>
      exact absurd (open_.symm.trans closed) Bool.false_ne_true

/-- The ids that are listed and may yet be published. -/
def upcoming (d : Discovery) : List String :=
  match d.point with
  | .publishing rest => rest.map (·.id)
  | .scanning | .listing _ _ | .resting _ | .ended _ => []

theorem upcoming_fresh (d : Discovery) (sources : List SourceEntry)
    (distinct : d.published.Nodup) :
    (d.published ++ (d.fresh sources).map (·.id)).Nodup := by
  refine List.nodup_append.mpr ⟨distinct, ?_, ?_⟩
  · exact (canonicalOrder_ids_nodup sources).sublist (List.filter_sublist.map _)
  · rintro p published q listed rfl
    obtain ⟨s, mem, rfl⟩ := List.mem_map.mp listed
    have unpublished := (List.mem_filter.mp mem).2
    simp [published] at unpublished

/-- No id is published twice. -/
theorem Moves.distinct (h : d.Moves w hub hub' d')
    (distinct : (d.published ++ d.upcoming).Nodup) : (d'.published ++ d'.upcoming).Nodup := by
  have published : (d.published ++ []).Nodup := by
    rw [List.append_nil]
    exact (List.nodup_append.mp distinct).1
  cases h with
  | scan | panic | firstScanFails | giveUp | refused | complete | rest | stop | wake =>
      exact published
  | list _ sources => exact d.upcoming_fresh sources (by simpa using published)
  | publish s rest at_ => simpa [upcoming, at_] using distinct

def Held (hub : Hub) (d : Discovery) : Prop :=
  (∃ s rest, d.point = .publishing (s :: rest)) ∧ d.limitReached = false ∧ hub.cancelled = false ∧
    hub.work.closed = false ∧ hub.work.capacity ≤ hub.work.size

theorem Moves.not_held (h : d.Moves w hub hub' d') : ¬d.Held hub := by
  rintro ⟨⟨s, rest, at_⟩, below, live, open_, full⟩
  unfold Queue.size at full
  cases h with
  | complete finished _ | rest _ finished _ _ =>
      obtain ⟨_, at', _⟩ | ⟨_, _, at', _⟩ := finished <;> simp_all
  | publish _ _ _ _ _ _ room => omega
  | scan at' | panic _ at' | firstScanFails _ _ at' | list _ _ at' | stop _ at' | wake _ at' =>
      rw [at_] at at'
      cases at'
  | giveUp _ _ _ _ cancelled => rw [live] at cancelled; contradiction
  | refused _ _ _ _ _ closed => rw [open_] at closed; contradiction

/-- Discovery that cannot go on waits for a point in time or for room, or has ended. -/
theorem step_eq_none (h : d.step w hub = none) :
    (∃ due reply, d.point = .listing due reply ∧ isDue hub.now due = false) ∨
      (∃ due, d.point = .resting due ∧ hub.now < due) ∨ d.Held hub ∨ d.Over := by
  unfold step at h
  split at h
  · simp at h
  · next due reply at_ =>
      split at h
      · split at h <;> simp at h
      · next later => exact .inl ⟨due, reply, at_, Bool.eq_false_iff.mpr later⟩
  · simp at h
  · next s rest at_ =>
      split at h
      · simp at h
      · next below =>
          split at h
          · simp at h
          · next live =>
              refine .inr (.inr (.inl ⟨⟨s, rest, at_⟩, Bool.eq_false_iff.mpr below,
                Bool.eq_false_iff.mpr live, ?_⟩))
              cases closed : hub.work.closed with
              | true => simp [Queue.tryPush_of_closed closed] at h
              | false =>
                  refine ⟨rfl, Nat.le_of_not_lt fun room => ?_⟩
                  simp [Queue.tryPush_of_room closed room] at h
  · next due at_ =>
      split at h
      · simp at h
      · split at h
        · simp at h
        · next later => exact .inr (.inl ⟨due, at_, Nat.lt_of_not_le later⟩)
  · next e at_ => exact .inr (.inr (.inr ⟨e, at_⟩))

end DecodePipeline.Discovery
