import DecodePipeline.Proofs.Queue.History
import DecodePipeline.Proofs.Stage.Gathering
import Mathlib.Logic.Relation

/-!
Discovery by itself, with somebody who takes items from the work queue and never closes it. At any
time the published items are those that the answers of the catalog come to, as far as discovery has
got with them; only a full queue holds it up and only cancellation cuts it short.
-/

namespace DecodePipeline

namespace Discovery

variable {w : World} {hub hub' : Hub} {d d' : Discovery} {entries : List SourceEntry}

theorem leftBehind_closed (d : Discovery) (hub : Hub) :
    (d.leftBehind hub).work.closed ↔ (d.mode = .batch ∨ d.limitReached) ∨ hub.work.closed := by
  simp only [leftBehind]
  split
  · next last => exact iff_of_true rfl (.inl last)
  · next more => simp [more]

/-- Discovery that ends closes the queue if nothing more can come, unless it broke down. -/
theorem Moves.closes (h : d.Moves w hub hub' d') (open_ : hub.work.closed = false) :
    hub'.work.closed ↔
      (∃ e, d'.point = .ended e ∧ e ≠ .panicked) ∧ (d'.mode = .batch ∨ d'.limitReached) := by
  cases h with
  | scan | list | publish | rest | wake => simp [open_, Hub.count]
  | panic => simp [open_]
  | firstScanFails | giveUp | stop =>
      rw [leftBehind_closed]
      simp [open_, limitReached]
  | refused _ _ _ _ _ closed => rw [open_] at closed; contradiction
  | complete _ last => exact iff_of_true rfl ⟨⟨_, rfl, by simp⟩, last⟩

/-- Discovery that ends by itself has not been refused by an open queue. -/
theorem Moves.ends (h : d.Moves w hub hub' d') (open_ : hub.work.closed = false) {e : Ending Nat}
    (ended : d'.point = .ended e) : e ≠ .faulted .queueClosed ∧ e ≠ .aborted := by
  cases h with
  | scan | list | publish | rest | wake => cases ended
  | panic | firstScanFails | giveUp | stop | complete => cases ended; simp
  | refused _ _ _ _ _ closed => rw [open_] at closed; contradiction

end Discovery

/-- Discovery with the items that somebody has taken from its queue. -/
structure Feed where
  hub : Hub
  discovery : Discovery
  taken : List WorkItem := []

namespace Feed

def start (capacity : Nat) (mode : DiscoveryMode) (limit : Option Nat) : Feed where
  hub := { work := { capacity }, artifacts := { capacity }, slots := 1 }
  discovery := { mode, maxItems := limit }

inductive Event (w : World) (f : Feed) : Feed → Prop where
  | step {hub : Hub} {d : Discovery} : f.discovery.step w f.hub = some (hub, d) →
      Event w f { f with hub, discovery := d }
  | take {item : WorkItem} {work : Queue WorkItem} : f.hub.work.tryPop = (.item item, work) →
      Event w f { f with hub := { f.hub with work }, taken := f.taken ++ [item] }
  | cancel : Event w f { f with hub := { f.hub with cancelled := true } }
  | clock (time : Nat) : f.hub.now ≤ time → Event w f { f with hub := { f.hub with now := time } }

/-- What feeds keep, with the entries that are published so far. -/
structure Fed (w : World) (mode : DiscoveryMode) (limit : Option Nat) (f : Feed)
    (entries : List SourceEntry) : Prop where
  mode : f.discovery.mode = mode
  limit : f.discovery.maxItems = limit
  course : f.discovery.Course w f.hub entries
  items : f.taken ++ f.hub.work.buffer = entries.map Discovery.workItem
  counted : f.hub.stats.discovered = entries.length
  closed : f.hub.work.closed ↔ (∃ e, f.discovery.point = .ended e ∧ e ≠ .panicked) ∧
    (f.discovery.mode = .batch ∨ f.discovery.limitReached)
  ends : ∀ e, f.discovery.point = .ended e → e ≠ .faulted .queueClosed ∧ e ≠ .aborted

variable {w : World} {f f' : Feed} {entries : List SourceEntry} {mode : DiscoveryMode}
  {limit : Option Nat}

theorem fed_start (w : World) (capacity : Nat) (mode : DiscoveryMode) (limit : Option Nat) :
    Fed w mode limit (start capacity mode limit) [] where
  mode := rfl
  limit := rfl
  course := Discovery.course_first w _ rfl mode limit
  items := rfl
  counted := rfl
  closed := by simp [start]
  ends := by simp [start]

/-- What is not a step of discovery publishes nothing. -/
theorem Fed.congr (fed : Fed w mode limit f entries) (discovery : f'.discovery = f.discovery)
    (scans : f'.hub.scans = f.hub.scans) (token : f.hub.cancelled → f'.hub.cancelled)
    (items : f'.taken ++ f'.hub.work.buffer = f.taken ++ f.hub.work.buffer)
    (stats : f'.hub.stats = f.hub.stats) (closed : f'.hub.work.closed = f.hub.work.closed) :
    Fed w mode limit f' entries where
  mode := discovery ▸ fed.mode
  limit := discovery ▸ fed.limit
  course := discovery ▸ fed.course.congr scans token
  items := items.trans fed.items
  counted := stats ▸ fed.counted
  closed := by rw [closed, discovery]; exact fed.closed
  ends := discovery ▸ fed.ends

/-- One event publishes at most one entry, and none once discovery is cancelled. -/
theorem Fed.event (fed : Fed w mode limit f entries) (h : Event w f f') :
    ∃ new, Fed w mode limit f' (entries ++ new) ∧
      (f.hub.cancelled → f'.hub.cancelled ∧ new = []) := by
  have silent (fed' : Fed w mode limit f' entries) (token : f.hub.cancelled → f'.hub.cancelled) :
      ∃ new, Fed w mode limit f' (entries ++ new) ∧
        (f.hub.cancelled → f'.hub.cancelled ∧ new = []) :=
    ⟨[], by rwa [List.append_nil], fun cancelled => ⟨token cancelled, rfl⟩⟩
  cases h with
  | step stepped =>
      have moves := Discovery.moves_of_step stepped
      obtain ⟨new, course, buffer, stats, quiet⟩ := fed.course.moves moves
      have open_ : f.hub.work.closed = false := by
        refine Bool.eq_false_iff.mpr fun closed => moves.not_over ?_
        obtain ⟨⟨e, ended, _⟩, _⟩ := fed.closed.mp closed
        exact ⟨e, ended⟩
      refine ⟨new, ?_, fun cancelled => ⟨moves.kept.cancelled.trans cancelled, quiet cancelled⟩⟩
      refine ⟨moves.fixed.1.trans fed.mode, moves.fixed.2.trans fed.limit, course, ?_, ?_,
        moves.closes open_, fun e ended => moves.ends open_ ended⟩
      · rw [buffer, ← List.append_assoc, fed.items, List.map_append]
      · rw [stats, fed.counted, List.length_append]
  | take popped =>
      cases Queue.effect_of_tryPop popped with
      | pop _ buffer _ closed =>
          exact silent (fed.congr rfl rfl id (by simp [buffer]) rfl closed) id
  | cancel => exact silent (fed.congr rfl rfl (fun _ => rfl) rfl rfl rfl) fun _ => rfl
  | clock => exact silent (fed.congr rfl rfl id rfl rfl rfl) id

theorem Fed.reached (fed : Fed w mode limit f entries)
    (reached : Relation.ReflTransGen (Event w) f f') :
    ∃ new, Fed w mode limit f' (entries ++ new) ∧
      (f.hub.cancelled → f'.hub.cancelled ∧ new = []) := by
  induction reached with
  | refl => exact ⟨[], by rwa [List.append_nil], fun cancelled => ⟨cancelled, rfl⟩⟩
  | tail _ event ih =>
      obtain ⟨new, fed, quiet⟩ := ih
      obtain ⟨more, fed', quiet'⟩ := fed.event event
      refine ⟨new ++ more, by rwa [← List.append_assoc], fun cancelled => ?_⟩
      obtain ⟨still, rfl⟩ := quiet cancelled
      obtain ⟨token, rfl⟩ := quiet' still
      exact ⟨token, rfl⟩

theorem Fed.length_published (fed : Fed w mode limit f entries) :
    f.discovery.published.length = entries.length := by
  rw [fed.course.ids, List.length_map]

theorem Fed.limited (fed : Fed w mode limit f entries) {m : Nat} (most : limit = some m) :
    f.discovery.published.length ≤ m := by
  rw [fed.length_published]
  exact fed.course.within m (fed.limit.trans most)

theorem Fed.limitReached_iff (fed : Fed w mode limit f entries) :
    f.discovery.limitReached ↔ limit = some f.discovery.published.length := by
  rw [Discovery.limitReached_iff, fed.limit]
  constructor
  · rintro ⟨m, most, reached⟩
    rw [most, Nat.le_antisymm (fed.limited most) reached]
  · intro most
    exact ⟨_, most, Nat.le_refl _⟩

/-- A batch that returns has published all that the catalog listed, up to the limit. -/
theorem Fed.batch (fed : Fed w mode limit f entries) (batch : mode = .batch) {n : Nat}
    (returned : f.discovery.point = .ended (.returned n)) :
    ∃ sources new, (w.catalog 0).reply = .gives sources ∧ Adds [] sources new ∧
      f.discovery.published = (new.map (·.id)).take (limit.getD new.length) := by
  have batch := fed.mode.trans batch
  obtain ⟨full, gathers, _, _, ends⟩ := fed.course.answered
  obtain ⟨_, all, listed⟩ := (ends _ returned).of_returned
  obtain ⟨k, sources, last, lists⟩ := listed batch
  have once := fed.course.once batch
  obtain rfl : k = 0 := by omega
  have answered : f.discovery.heard f.hub = 1 := by simp [Discovery.heard, returned, last]
  rw [answered, fed.limit] at gathers
  obtain ⟨_, new, reply, adds, total⟩ | ⟨_, none⟩ := gathers.of_one
  · refine ⟨_, new, reply, adds, ?_⟩
    rw [fed.course.ids, all, total, capped, List.map_take]
  · exact absurd lists (none sources)

end Feed

end DecodePipeline
