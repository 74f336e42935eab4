import DecodePipeline.Proofs.Run.Cancellation
import DecodePipeline.Proofs.Run.Conservation
import DecodePipeline.Proofs.Run.Listing

/-!
In which order the renderer is shown the sets. Consumption takes them as they were handed on, so it
shows some of those that it takes, each once; and a single worker hands on some of the items in the
order in which they were published.
-/

namespace DecodePipeline

/-- The id of the set that a call shows. -/
def RendererCall.shown? : RendererCall → Option String
  | .accept _ _ set => some set.itemId
  | .reset _ => none

namespace Consumption

variable {w : World} {hub hub' : Hub} {c c' : Consumption}

/-- The id of the set that is taken and not yet shown. -/
def unshown (c : Consumption) : List String :=
  match c.point with
  | .checking set | .resetting set _ _ => [set.itemId]
  | .idle | .accepting _ _ _ | .ended _ => []

/-- What is shown, and is about to be, are some of the sets that were taken, in their order. -/
def Shows (hub : Hub) (c : Consumption) : Prop :=
  (hub.rendererCalls.filterMap RendererCall.shown? ++ c.unshown).Sublist (c.taken.map (·.itemId))

theorem Shows.dropped (shows : c.Shows hub) :
    (hub.rendererCalls.filterMap RendererCall.shown?).Sublist (c.taken.map (·.itemId)) :=
  (List.sublist_append_left _ _).trans shows

theorem Moves.shows (h : c.Moves w hub hub' c') (shows : c.Shows hub) : c'.Shows hub' := by
  cases h with
  | take set rest idle =>
      simp only [Shows, unshown, idle, List.append_nil] at shows
      simpa [Shows, unshown] using shows.append_right [set.itemId]
  | leave | reject | panic | refuse | accept =>
      simpa [Shows, unshown, Hub.count] using shows.dropped
  | reset set at_ =>
      simp only [Shows, unshown, at_] at shows
      have silent : [RendererCall.reset hub.now].filterMap RendererCall.shown? = [] := rfl
      simpa [Shows, unshown, silent] using shows
  | offer set at_ | offerAfterReset set _ _ at_ =>
      simp only [Shows, unshown, at_] at shows
      simpa [Shows, unshown, Consumption.offer, RendererCall.shown?] using shows

theorem Shows.abort (shows : c.Shows hub) : c.abort.Shows hub := by
  unfold Consumption.abort
  split
  · exact shows
  · simpa [Shows, unshown, cutOff] using shows.dropped

end Consumption

theorem Attempts.Moves.rendererCalls {w : World} {policy : RetryPolicy} {timeout : Span}
    {hub hub' : Hub} {a a' : Attempts} (h : a.Moves w policy timeout hub hub' a') :
    hub'.rendererCalls = hub.rendererCalls := by
  cases h <;> rfl

namespace Worker

variable {w : World} {s : Settings} {hub hub' : Hub} {x x' : Worker}

theorem Moves.rendererCalls (h : x.Moves w s hub hub' x') :
    hub'.rendererCalls = hub.rendererCalls := by
  cases h with
  | leave | take | abandonSet | hand | refused => rfl
  | attempt _ _ _ moved | transformed _ _ _ moved | failed _ _ _ _ moved | abandon _ _ moved
  | panic _ _ moved => exact moved.rendererCalls

/-- What a worker takes it holds, and what it holds it hands on or drops. -/
theorem Moves.queued (h : x.Moves w s hub hub' x') :
    (hub'.artifacts.buffer.map (·.itemId) ++ x'.held?.toList ++
        hub'.work.buffer.map (·.id)).Sublist
      (hub.artifacts.buffer.map (·.itemId) ++ x.held?.toList ++ hub.work.buffer.map (·.id)) := by
  cases h with
  | leave idle => simp [held?, idle]
  | take item rest idle live buffer =>
      simp [held?, idle, buffer, Attempts.begin, Attempts.item?, WorkItem.begun]
  | attempt a a' busy moved going =>
      obtain ⟨item, of, same⟩ := moved.item
      rw [moved.alike.artifacts, moved.alike.work, held_busy busy of]
      cases a' with
      | waiting | calling | pausing =>
          dsimp only at same
          simp [held?, Attempts.item?, same]
      | ended => simp [Attempts.outcome?] at going
  | transformed a set busy moved =>
      obtain ⟨item, of, same⟩ := moved.item
      dsimp only at same
      rw [moved.alike.artifacts, moved.alike.work, held_busy busy of]
      simp [held?, same]
  | failed a _ _ busy moved | abandon a busy moved | panic a busy moved =>
      simp only [Hub.count, moved.alike.artifacts, moved.alike.work]
      simp [held?, cutOff]
  | abandonSet set handing => simp [held?, Hub.count]
  | hand set handing => simp [held?, handing, Hub.count]
  | refused set handing => simp [held?]

theorem held_aborted (x : Worker) : x.aborted.held?.toList.Sublist x.held?.toList := by
  unfold aborted
  split
  · exact .refl _
  · simp [cutOff, held?]

end Worker

/-- What discovery publishes it puts into the queue, behind the others. -/
theorem Discovery.Moves.queued {w : World} {hub hub' : Hub} {d d' : Discovery}
    (h : d.Moves w hub hub' d') :
    ∃ new, d'.published = d.published ++ new ∧
      hub'.work.buffer.map (·.id) = hub.work.buffer.map (·.id) ++ new := by
  cases h with
  | publish s rest =>
      exact ⟨[s.id], rfl, by simp [Hub.count, workItem, WorkItem.new, WorkItem.queued]⟩
  | firstScanFails | giveUp | refused | stop =>
      obtain ⟨_, buffer, _⟩ := leftBehind_same d hub
      exact ⟨[], by simp, by simp [buffer]⟩
  | scan | panic | list | complete | rest | wake => exact ⟨[], by simp, by simp [Queue.close]⟩

namespace Run

variable {w : World} {s : Settings} {r r' : Run} {d d' : Discovery} {c c' : Consumption}

/-- The ids of the sets that the renderer has been shown. -/
def shownIds (r : Run) : List String := r.hub.rendererCalls.filterMap RendererCall.shown?

/-- The sets are shown in the order in which they are taken. A single worker keeps what it hands
on in the order in which it was published. -/
structure Sequenced (r : Run) (d : Discovery) (c : Consumption) : Prop where
  shows : c.Shows r.hub
  line : r.workers.length = 1 →
    (c.taken.map (·.itemId) ++ (r.hub.artifacts.buffer.map (·.itemId) ++
      r.workers.flatMap (·.held?.toList) ++ r.hub.work.buffer.map (·.id))).Sublist d.published

theorem sequenced_launch (s : Settings) (now : Nat) (cancelled : Bool) :
    Sequenced (fresh s now cancelled).launch (firstDiscovery s) (firstConsumption s) where
  shows := List.Sublist.refl []
  line single := by
    obtain ⟨x, eq⟩ := List.length_eq_one_iff.mp single
    have idle : x = {} := List.eq_of_mem_replicate (eq ▸ List.mem_singleton_self x)
    rw [eq, idle]
    exact List.Sublist.refl []

theorem shows_congr {hub hub' : Hub} (shows : c.Shows hub)
    (same : hub'.rendererCalls = hub.rendererCalls) : c.Shows hub' := by
  unfold Consumption.Shows
  rw [same]
  exact shows

theorem Sequenced.supervised (sequenced : Sequenced r d c) (h : Supervises r d c r' d' c') :
    Sequenced r' d' c' := by
  have attended := h.attended
  have shows := shows_congr sequenced.shows h.calls.2
  refine ⟨?_, fun single => ?_⟩
  · obtain rfl | rfl := h.tasks.2
    · exact shows
    · exact shows.abort
  · rw [h.published, h.taken, attended.artifacts.1, attended.work.1]
    obtain ⟨same, _⟩ | ⟨_, ended, _⟩ := attended.workers
    · rw [same] at single ⊢
      exact sequenced.line single
    · -- a worker that is ended loses its item, so the line gets no longer
      rw [ended, List.length_map] at single
      have line := sequenced.line single
      obtain ⟨x, crew⟩ := List.length_eq_one_iff.mp single
      simp only [ended, crew, List.map_cons, List.map_nil, List.flatMap_singleton] at line ⊢
      refine List.Sublist.trans (List.Sublist.append_left ?_ _) line
      exact (x.held_aborted.append_left _).append_right _

theorem Sequenced.works (sequenced : Sequenced r d c) (h : Works w r d c r' d' c') :
    Sequenced r' d' c' := by
  cases h with
  | discovery hub _ moved =>
      refine ⟨shows_congr sequenced.shows moved.calls.2, fun single => ?_⟩
      obtain ⟨new, published, buffer⟩ := moved.queued
      have line := (sequenced.line single).append_right new
      rw [published, moved.artifacts.1, buffer]
      simpa only [List.append_assoc] using line
  | worker i x x' hub at_ moved =>
      refine ⟨shows_congr sequenced.shows moved.rendererCalls, fun single => ?_⟩
      rw [List.length_set] at single
      have line := sequenced.line single
      obtain ⟨y, crew⟩ := List.length_eq_one_iff.mp single
      obtain ⟨lt, eq⟩ := List.getElem?_eq_some_iff.mp at_
      obtain rfl : i = 0 := by omega
      obtain rfl : y = x := by simpa [crew] using eq
      simp only [crew, List.set_cons_zero, List.flatMap_singleton] at line ⊢
      exact (moved.queued.append_left _).trans line
  | consumption hub _ moved =>
      refine ⟨moved.shows sequenced.shows, fun single => ?_⟩
      have line := sequenced.line single
      obtain ⟨_, out, taken, buffer⟩ := moved.ceased
      rw [buffer] at line
      rw [taken, moved.work.1]
      simpa only [List.map_append, List.append_assoc] using line
  | supervisor supervises => exact sequenced.supervised supervises

theorem Sequenced.shownIds (sequenced : Sequenced r d c) :
    r.shownIds.Sublist (c.taken.map (·.itemId)) :=
  sequenced.shows.dropped

/-- Each set is shown once. With a single worker the sets are shown in the order in which their
items were published, so in batch mode their ids rise. -/
theorem shows_in_order {r₀ : Run} (started : begin s = .ok r₀)
    (reached : Relation.ReflTransGen (Change w) r₀ r) :
    r.shownIds.Nodup ∧
      (s.workers = 1 → r.shownIds.Sublist r.publishedIds ∧
        (s.mode = .batch → r.shownIds.Pairwise (· < ·))) := by
  have invariant := launched_induction (w := w) (s := s)
    (P := fun r d c => Charted w s r d c ∧ Tallied r d c ∧ Sequenced r d c)
    (fun now cancelled =>
      ⟨charted_launch w s now cancelled, tallied_launch s now cancelled,
        sequenced_launch s now cancelled⟩)
    (fun ⟨charted, tallied, sequenced⟩ works =>
      ⟨charted.works works, tallied.works charted.coherent.order works, sequenced.works works⟩)
    (fun ⟨charted, tallied, sequenced⟩ => ⟨charted.cancel, { tallied with }, { sequenced with }⟩)
    (fun time _ ⟨charted, tallied, sequenced⟩ =>
      ⟨charted.clock time, { tallied with }, { sequenced with }⟩)
    started reached
  obtain ⟨now, cancelled, rfl⟩ | ⟨d, c, launched, charted, tallied, sequenced⟩ := invariant
  · exact ⟨List.nodup_nil, fun _ => ⟨List.Sublist.refl [], fun _ => .nil⟩⟩
  have shown := sequenced.shownIds
  refine ⟨?_, fun single => ?_⟩
  · obtain ⟨dropped, _, ledger⟩ := tallied.ledger
    have distinct := ledger.nodup_iff.mp (List.nodup_append.mp tallied.distinct).1
    exact ((List.nodup_append.mp (List.nodup_append.mp distinct).1).2.1).sublist shown
  · have published : r.publishedIds = d.published := by simp [publishedIds, launched.discovery]
    have line := sequenced.line (charted.coherent.fits.crew.trans single)
    have ordered := shown.trans ((List.sublist_append_left _ _).trans line)
    rw [published]
    refine ⟨ordered, fun batch => ?_⟩
    obtain ⟨entries, course⟩ := charted.course
    exact (course.rises (charted.coherent.fits.mode.trans batch)).sublist ordered

/-- A decoder that has no use for the second source. -/
def pickyWorld : World where
  catalog _ := ⟨some 0, .gives threeSources⟩
  decoder id _ :=
    { delay := some 0
      reply := if id = "b" then .fails (.config "no such format")
        else .gives ⟨[Frame.name id 0], [Frame.name id 0]⟩
      heeds := true }
  reset := ⟨some 0, .gives ()⟩
  accept _ _ := ⟨some 0, .gives ()⟩

/-- The second of three items fails; the others are shown in their order. -/
theorem shows_in_order_one_failed :
    ∃ r, Relation.ReflTransGen (Change pickyWorld) (fresh {} 0 false) r ∧
      r.publishedIds = ["a", "b", "c"] ∧ r.shownIds = ["a", "c"] ∧
      r.shownIds.Nodup ∧ r.shownIds.Sublist r.publishedIds ∧ r.shownIds.Pairwise (· < ·) := by
  let calls : List Action := [.worker 0, .worker 0, .worker 0]
  let shows : List Action := [.consumption, .consumption, .consumption]
  let later : List Action :=
    [.discovery, .discovery, .discovery] ++ calls ++ [.worker 0] ++ calls ++ calls ++ [.worker 0] ++
      shows ++ [.consumption] ++ shows
  have arrives : ((listed {}).follow pickyWorld later).any (fun r =>
      r.publishedIds = ["a", "b", "c"] && r.shownIds = ["a", "c"]) := by decide
  obtain ⟨r, arrives, holds⟩ := (Option.any_eq_true _ _).mp arrives
  simp only [Bool.and_eq_true, decide_eq_true_eq] at holds
  have reached := reaches_of_reachable
    (reachable_of_follow ((follow_scanned {} rfl later).trans arrives))
  obtain ⟨once, alone⟩ := shows_in_order (s := {}) rfl reached
  obtain ⟨ordered, rises⟩ := alone rfl
  exact ⟨r, reached, holds.1, holds.2, once, ordered, rises rfl⟩

end Run

end DecodePipeline
