import DecodePipeline.Proofs.Run.Recovery

/-!
A polling run without a limit, whose scans all succeed, goes on until somebody cancels it. The
supervisor waits for discovery alone, so it does not learn of a worker or of consumption that
breaks down in the meantime.
-/

namespace DecodePipeline

/-- Every scan of the catalog gives a listing. -/
def World.AlwaysLists (w : World) : Prop := ∀ n, ∃ sources, (w.catalog n).reply = .gives sources

namespace Run

variable {w : World} {s : Settings} {r r' : Run} {d d' : Discovery} {c c' : Consumption}

/-- Discovery polls, and what it is told is a listing. -/
structure Discovery.Polls (d : Discovery) : Prop where
  mode : d.mode ≠ .batch
  limit : d.maxItems = none
  listing : ∀ due reply, d.point = .listing due reply → ∃ sources, reply = .gives sources
  running : ¬d.Over

/-- A run that the supervisor watches and that nothing has stopped. -/
structure Polling (r : Run) (d : Discovery) (c : Consumption) : Prop where
  launched : Launched r d c
  watching : r.supervisor.phase = .watching
  live : r.hub.cancelled = false
  work_open : r.hub.work.closed = false
  polls : Discovery.Polls d

theorem Discovery.Polls.below (polls : Discovery.Polls d) : d.limitReached = false := by
  simp [Discovery.limitReached, polls.limit]

theorem Discovery.Polls.discovery {hub hub' : Hub} (polls : Discovery.Polls d)
    (lists : w.AlwaysLists) (live : hub.cancelled = false) (open_ : hub.work.closed = false)
    (moved : d.Moves w hub hub' d') : Discovery.Polls d' ∧ hub'.work.closed = false := by
  have fixed := moved.fixed
  have mode : d'.mode ≠ .batch := by rw [fixed.1]; exact polls.mode
  have limit : d'.maxItems = none := fixed.2.trans polls.limit
  cases moved with
  | scan =>
      refine ⟨⟨mode, limit, ?_, by rintro ⟨e, ended⟩; cases ended⟩, open_⟩
      intro due reply at_
      cases at_
      exact lists _
  | list | publish | rest | wake =>
      exact ⟨⟨mode, limit, (fun _ _ at_ => by cases at_), by rintro ⟨e, ended⟩; cases ended⟩, open_⟩
  | panic due at_ | firstScanFails due messages at_ =>
      obtain ⟨sources, gives⟩ := polls.listing due _ at_
      cases gives
  | giveUp _ _ _ _ cancelled | stop _ _ cancelled => rw [live] at cancelled; contradiction
  | refused _ _ _ _ _ closed => rw [open_] at closed; contradiction
  | complete _ last =>
      obtain batch | reached := last
      · exact absurd batch polls.mode
      · rw [polls.below] at reached
        contradiction

theorem Polling.works (polling : Polling r d c) (lists : w.AlwaysLists)
    (h : Works w r d c r' d' c') : Polling r' d' c' := by
  have launched := h.launched polling.launched
  obtain ⟨_, watching, live, open_, polls⟩ := polling
  cases h with
  | discovery hub _ moved =>
      obtain ⟨polls', open'⟩ := polls.discovery lists live open_ moved
      exact ⟨launched, watching, moved.kept.cancelled.trans live, open', polls'⟩
  | worker _ _ _ hub _ moved =>
      exact ⟨launched, watching, moved.kept.cancelled.trans live, moved.work.1.trans open_, polls⟩
  | consumption hub _ moved =>
      refine ⟨launched, watching, moved.kept.cancelled.trans live, ?_, polls⟩
      change hub.work.closed = false
      rw [moved.work.1, open_]
  | supervisor supervises =>
      exfalso
      cases supervises with
      | discoveryOver e _ ended => exact polls.running ⟨e, ended⟩
      | interrupted _ cancelled | armed _ cancelled => rw [live] at cancelled; contradiction
      | discoveryJoined _ phase | discoveryExpired phase | workerJoined _ _ _ phase
      | workersGone _ phase | workersExpired phase | consumptionJoined _ _ phase
      | consumptionExpired _ phase =>
          rw [watching] at phase
          cases phase

theorem polling_launch (polls : s.mode ≠ .batch) (unlimited : s.maxItems = none) (now : Nat) :
    Polling (fresh s now false).launch (firstDiscovery s) (firstConsumption s) where
  launched := launched_launch s now false
  watching := rfl
  live := rfl
  work_open := rfl
  polls := ⟨polls, unlimited, (fun _ _ at_ => by cases at_), by rintro ⟨e, ended⟩; cases ended⟩

/-- What is inevitable can come. -/
theorem Inevitable.possible {goal : Run → Prop} (h : Inevitable w goal r) :
    ∃ r', Relation.ReflTransGen (Move w) r r' ∧ goal r' := by
  induction h with
  | here at_ => exact ⟨_, .refl, at_⟩
  | later moves _ ih =>
      obtain ⟨next, move⟩ := moves
      obtain ⟨r', reached, at_⟩ := ih next move
      exact ⟨r', reached.head move, at_⟩

theorem Polling.reached (polling : Polling r d c) (lists : w.AlwaysLists)
    (reached : Relation.ReflTransGen (Move w) r r') : ∃ d' c', Polling r' d' c' := by
  induction reached with
  | refl => exact ⟨d, c, polling⟩
  | tail _ move ih =>
      obtain ⟨d', c', polling⟩ := ih
      exact move.keeps (fun polling => polling.launched) (fun polling h => polling.works lists h)
        (fun _ polling => { polling with launched := polling.launched.clock _ }) polling

/-- A polling run keeps running, and nothing is bound to stop it. -/
theorem Polling.goes_on (polling : Polling r d c) (lists : w.AlwaysLists) :
    r.lifecycle = .running ∧ ¬Inevitable w StoppedWithFault r := by
  refine ⟨by rw [lifecycle, polling.watching]; rfl, ?_⟩
  intro recovers
  obtain ⟨r', ahead, stopped, _⟩ := recovers.possible
  obtain ⟨_, _, polling'⟩ := polling.reached lists ahead
  rw [lifecycle, polling'.watching] at stopped
  cases stopped

/-- What breaks down, but for the catalog, does not end polling. -/
theorem polling_goes_on {r₀ : Run} (started : begin s = .ok r₀) (polls : s.mode ≠ .batch)
    (unlimited : s.maxItems = none) (lists : w.AlwaysLists)
    (reached : Relation.ReflTransGen (Change w) r₀ r) (broken : HasBroken r)
    (live : r.hub.cancelled = false) :
    r.lifecycle = .running ∧ ¬Inevitable w StoppedWithFault r := by
  have invariant := launched_induction (w := w) (s := s)
    (P := fun r d c => r.hub.cancelled = false → Polling r d c)
    (fun now cancelled live => by
      obtain rfl : cancelled = false := live
      exact polling_launch polls unlimited now)
    (fun polling h live => by
      refine (polling ?_).works lists h
      exact Bool.eq_false_iff.mpr fun cancelled => by simp [h.cancelled cancelled] at live)
    (fun _ live => by cases live)
    (fun time _ polling live =>
      { polling live with launched := (polling live).launched.clock time })
    started reached
  obtain ⟨now, cancelled, rfl⟩ | ⟨d, c, _, polling⟩ := invariant
  · exact absurd broken (not_hasBroken_fresh s now cancelled)
  · exact (polling live).goes_on lists

end Run

end DecodePipeline
