import DecodePipeline.Proofs.Run.Order

/-!
Items are conserved. Every published id is in one place: queued, held by a worker, lost with
a worker, failed, queued as an artifact set, taken by consumption, or abandoned. The
counters of a run agree with these places in every state, however its tasks, its
cancellation and its clock are mixed, and so does the summary at the end.
-/

namespace DecodePipeline

/-- The ids of the items in the queues, and of those that failed. -/
def Hub.entered (hub : Hub) : List String :=
  hub.work.buffer.map (·.id) ++ hub.stats.failures.map (·.id) ++
    hub.artifacts.buffer.map (·.itemId)

namespace Worker

variable {w : World} {s : Settings} {hub hub' : Hub} {x x' : Worker}

/-- The ids of the items that are with a worker, alive or lost. -/
def carries (x : Worker) : List String := x.held?.toList ++ x.lost.toList

/-- A worker loses an item only when it breaks down or is ended from outside. -/
def Sound (x : Worker) : Prop :=
  x.lost.isSome → x.point = .ended .panicked ∨ x.point = .ended .aborted

theorem Sound.lost_eq_none (sound : x.Sound) (alive : ¬x.Over) : x.lost = none := by
  cases lost : x.lost with
  | none => rfl
  | some id =>
      have ended := sound (by rw [lost]; rfl)
      exact absurd (ended.elim (⟨_, ·⟩) (⟨_, ·⟩)) alive

theorem Moves.sound (h : x.Moves w s hub hub' x') (sound : x.Sound) : x'.Sound := by
  have none := sound.lost_eq_none h.not_over
  intro lost
  cases h with
  | panic => exact .inl rfl
  | leave | take | attempt | transformed | failed | abandon | abandonSet | hand | refused =>
      simp [none] at lost

theorem sound_aborted (sound : x.Sound) : x.aborted.Sound := by
  simp only [aborted]
  split
  · exact sound
  · exact fun _ => .inr rfl

theorem carries_aborted (sound : x.Sound) : x.aborted.carries = x.carries := by
  simp only [aborted]
  split
  · rfl
  · next running =>
      have alive : ¬x.Over := by
        rintro ⟨e, ended⟩
        exact running e ended
      simp [carries, cutOff, held?, sound.lost_eq_none alive]

theorem held_busy {a : Attempts} {item : WorkItem} (busy : x.point = .busy a)
    (of : a.item? = some item) : x.held? = some item.id := by
  simp [held?, busy, of]

theorem carries_busy {a : Attempts} {item : WorkItem} (busy : x.point = .busy a)
    (of : a.item? = some item) (none : x.lost = none) : x.carries = [item.id] := by
  simp [carries, held?, busy, of, none]

theorem entered_of_alike (h : hub.Alike hub') : hub'.entered = hub.entered := by
  simp only [Hub.entered]
  rw [h.work, h.stats, h.artifacts]

/-- An item that a worker gives up is counted as abandoned; every other one stays among
those that are queued, failed or carried. -/
theorem Moves.ledger (h : x.Moves w s hub hub' x') (sound : x.Sound)
    (opened : hub.artifacts.closed = false) :
    ∃ dropped : List String, hub'.stats.abandoned = hub.stats.abandoned + dropped.length ∧
      (hub.entered ++ x.carries).Perm (hub'.entered ++ x'.carries ++ dropped) := by
  have none := sound.lost_eq_none h.not_over
  cases h with
  | leave idle => exact ⟨[], rfl, by simp [carries, held?, idle]⟩
  | take item rest idle live buffer =>
      refine ⟨[], rfl, List.perm_iff_count.mpr fun p => ?_⟩
      simp [Hub.entered, carries, held?, idle, none, buffer, Attempts.begin, Attempts.item?,
        WorkItem.begun, List.count_cons]
      omega
  | attempt a a' busy moved going =>
      obtain ⟨item, of, same⟩ := moved.item
      refine ⟨[], by rw [moved.alike.stats]; rfl, ?_⟩
      have carried : carries { x with point := .busy a' } = [item.id] := by
        cases a' with
        | waiting item' | calling item' | pausing item' =>
            rw [carries_busy (x := { x with point := .busy _ }) rfl rfl none, same]
        | ended outcome => simp [Attempts.outcome?] at going
      rw [carries_busy busy of none, carried, entered_of_alike moved.alike, List.append_nil]
  | transformed a set busy moved =>
      obtain ⟨item, of, same⟩ := moved.item
      refine ⟨[], by rw [moved.alike.stats]; rfl, ?_⟩
      rw [carries_busy busy of none, entered_of_alike moved.alike, List.append_nil]
      simp [carries, held?, none, same]
  | failed a item' fault busy moved =>
      obtain ⟨item, of, same⟩ := moved.item
      refine ⟨[], by simp [Hub.count, Stats.addFailed, moved.alike.stats], ?_⟩
      apply List.perm_iff_count.mpr
      intro p
      rw [carries_busy busy of none]
      simp [Hub.entered, Hub.count, Stats.addFailed, moved.alike.stats, moved.alike.work,
        moved.alike.artifacts, carries, held?, none, same, List.count_cons]
  | abandon a busy moved =>
      obtain ⟨item, of, _⟩ := moved.item
      refine ⟨[item.id], by simp [Hub.count, Stats.addAbandoned, moved.alike.stats], ?_⟩
      rw [carries_busy busy of none]
      simp [Hub.entered, Hub.count, Stats.addAbandoned, moved.alike.stats, moved.alike.work,
        moved.alike.artifacts, carries, held?, none]
  | panic a busy moved =>
      obtain ⟨item, of, _⟩ := moved.item
      refine ⟨[], by rw [moved.alike.stats]; rfl, ?_⟩
      rw [carries_busy busy of none, entered_of_alike moved.alike]
      simp [carries, cutOff, held?, busy, of]
  | abandonSet set handing =>
      refine ⟨[set.itemId], rfl, ?_⟩
      simp [Hub.entered, Hub.count, Stats.addAbandoned, carries, held?, handing, none]
  | hand set handing live open_ room =>
      refine ⟨[], rfl, ?_⟩
      simp [Hub.entered, Hub.count, Stats.addTransformed, carries, held?, handing, none]
  | refused set handing live closed => rw [opened] at closed; contradiction

/-- A worker counts a set as transformed when the artifact queue takes it, and an item as
failed when it notes the failure. -/
theorem Moves.counters (h : x.Moves w s hub hub' x') :
    hub'.stats.discovered = hub.stats.discovered ∧
      hub'.stats.consumed + hub'.stats.rejected = hub.stats.consumed + hub.stats.rejected ∧
      hub'.stats.transformed + hub.artifacts.buffer.length =
        hub.stats.transformed + hub'.artifacts.buffer.length ∧
      hub'.stats.failed + hub.stats.failures.length =
        hub.stats.failed + hub'.stats.failures.length := by
  cases h with
  | leave | take | refused | abandonSet => exact ⟨rfl, rfl, rfl, rfl⟩
  | attempt _ _ _ moved | transformed _ _ _ moved | panic _ _ moved =>
      rw [moved.alike.stats, moved.alike.artifacts]
      exact ⟨rfl, rfl, rfl, rfl⟩
  | failed _ _ _ _ moved =>
      simp [Hub.count, Stats.addFailed, moved.alike.stats, moved.alike.artifacts]
      omega
  | abandon _ _ moved =>
      simp [Hub.count, Stats.addAbandoned, moved.alike.stats, moved.alike.artifacts]
  | hand =>
      simp [Hub.count, Stats.addTransformed]
      omega

end Worker

namespace Consumption

variable {w : World} {hub hub' : Hub} {c c' : Consumption}

def Sound (c : Consumption) : Prop :=
  c.lost.isSome → c.point = .ended .panicked ∨ c.point = .ended .aborted

/-- How many sets are with consumption, alive or lost. -/
def carried (c : Consumption) : Nat := c.held?.toList.length + c.lost.toList.length

theorem Sound.lost_eq_none (sound : c.Sound) (alive : ¬c.Over) : c.lost = none := by
  cases lost : c.lost with
  | none => rfl
  | some set =>
      have ended := sound (by rw [lost]; rfl)
      exact absurd (ended.elim (⟨_, ·⟩) (⟨_, ·⟩)) alive

theorem Moves.sound (h : c.Moves w hub hub' c') (sound : c.Sound) : c'.Sound := by
  have none := sound.lost_eq_none h.not_over
  intro lost
  cases h with
  | panic => exact .inl rfl
  | offer | offerAfterReset =>
      have lost : c.lost.isSome := lost
      simp [none] at lost
  | take | leave | reject | reset | refuse | accept => simp [none] at lost

theorem sound_abort (sound : c.Sound) : c.abort.Sound := by
  simp only [abort]
  split
  · exact sound
  · exact fun _ => .inr rfl

theorem carried_abort (sound : c.Sound) : c.abort.carried = c.carried := by
  simp only [abort]
  split
  · rfl
  · next running =>
      have alive : ¬c.Over := by
        rintro ⟨e, ended⟩
        exact running e ended
      simp [carried, cutOff, held?, sound.lost_eq_none alive]

/-- Consumption moves sets from the artifact queue to those that it has taken. -/
theorem Moves.ledger (h : c.Moves w hub hub' c') :
    (hub.entered ++ c.taken.map (·.itemId)).Perm (hub'.entered ++ c'.taken.map (·.itemId)) ∧
      hub'.stats.discovered = hub.stats.discovered ∧ hub'.stats.abandoned = hub.stats.abandoned ∧
      hub'.stats.transformed = hub.stats.transformed ∧
      hub'.artifacts.buffer.length + c'.taken.length =
        hub.artifacts.buffer.length + c.taken.length ∧
      hub'.stats.failed = hub.stats.failed ∧ hub'.stats.failures = hub.stats.failures := by
  cases h with
  | take set rest idle buffer =>
      refine ⟨List.perm_iff_count.mpr fun p => ?_, rfl, rfl, rfl, ?_, rfl, rfl⟩
      · simp [Hub.entered, buffer, List.count_cons]
        omega
      · simp [buffer]
        omega
  | leave | reject | reset | offer | offerAfterReset | panic | refuse | accept =>
      exact ⟨.refl _, rfl, rfl, rfl, rfl, rfl, rfl⟩

/-- Every set that consumption took is with it, or was counted once. -/
theorem Moves.counters (h : c.Moves w hub hub' c') (sound : c.Sound) :
    c'.taken.length + (c.carried + hub.stats.consumed + hub.stats.rejected) =
      c.taken.length + (c'.carried + hub'.stats.consumed + hub'.stats.rejected) := by
  have none := sound.lost_eq_none h.not_over
  cases h with
  | take set rest idle buffer =>
      simp [carried, held?, idle, none]
      omega
  | leave idle => simp [carried, held?, idle]
  | reset set at_ | offer set at_ | offerAfterReset set due reply at_ =>
      simp [carried, held?, at_, none, Consumption.offer]
  | reject set fault at_ | refuse set due messages at_ =>
      simp [carried, held?, at_, none, Hub.count, Stats.addRejected]
      omega
  | accept set due at_ =>
      simp [carried, held?, at_, none, Hub.count, Stats.addConsumed]
      omega
  | panic set due at_ => obtain at_ | at_ := at_ <;> simp [carried, held?, at_, none]

end Consumption

namespace Discovery

variable {w : World} {hub hub' : Hub} {d d' : Discovery}

/-- What discovery publishes is queued and counted as discovered. -/
theorem Moves.ledger (h : d.Moves w hub hub' d') :
    (d'.published ++ hub.entered).Perm (d.published ++ hub'.entered) ∧
      hub'.stats.discovered + d.published.length = hub.stats.discovered + d'.published.length ∧
      hub'.stats.transformed = hub.stats.transformed ∧
      hub'.stats.abandoned = hub.stats.abandoned ∧
      hub'.stats.consumed + hub'.stats.rejected = hub.stats.consumed + hub.stats.rejected ∧
      hub'.stats.failed = hub.stats.failed ∧ hub'.stats.failures = hub.stats.failures := by
  cases h with
  | firstScanFails | giveUp | refused | stop =>
      simp only [leftBehind]
      split <;> exact ⟨.refl _, rfl, rfl, rfl, rfl, rfl, rfl⟩
  | publish s rest =>
      refine ⟨List.perm_iff_count.mpr fun p => ?_, ?_, rfl, rfl, rfl, rfl, rfl⟩
      · simp [Hub.entered, Hub.count, Stats.addDiscovered, workItem, WorkItem.new, WorkItem.queued,
          List.count_cons]
        omega
      · simp [Hub.count, Stats.addDiscovered]
        omega
  | scan | panic | list | complete | rest | wake => exact ⟨.refl _, rfl, rfl, rfl, rfl, rfl, rfl⟩

end Discovery

namespace Run

variable {w : World} {s : Settings} {r r' : Run} {d d' : Discovery} {c c' : Consumption}

def carriedIds (r : Run) : List String := r.workers.flatMap Worker.carries

/-- The counters agree with the places of the items; `dropped` are the ids of those that
were abandoned. -/
structure Tallied (r : Run) (d : Discovery) (c : Consumption) : Prop where
  discovered : r.hub.stats.discovered = d.published.length
  transformed : r.hub.stats.transformed = r.hub.artifacts.buffer.length + c.taken.length
  ledger : ∃ dropped : List String, r.hub.stats.abandoned = dropped.length ∧
    d.published.Perm (r.hub.entered ++ r.carriedIds ++ c.taken.map (·.itemId) ++ dropped)
  taken : c.taken.length = c.carried + r.hub.stats.consumed + r.hub.stats.rejected
  failed : r.hub.stats.failed = r.hub.stats.failures.length
  distinct : (d.published ++ d.upcoming).Nodup
  workers : ∀ x ∈ r.workers, x.Sound
  consumption : c.Sound

theorem tallied_launch (s : Settings) (now : Nat) (cancelled : Bool) :
    Tallied (fresh s now cancelled).launch (firstDiscovery s) (firstConsumption s) := by
  have nothing : (List.replicate s.workers ({} : Worker)).flatMap Worker.carries = [] := by
    apply List.flatMap_eq_nil_iff.mpr
    intro x mem
    obtain rfl := List.eq_of_mem_replicate mem
    rfl
  refine ⟨rfl, rfl, ⟨[], rfl, ?_⟩, rfl, rfl, List.nodup_nil, ?_, ?_⟩
  · simp [firstDiscovery, firstConsumption, carriedIds, launch, enter, fresh, nothing, Hub.entered]
  · intro x mem lost
    obtain rfl := List.eq_of_mem_replicate mem
    cases lost
  · intro lost
    cases lost

theorem flatMap_carries_aborted {xs : List Worker} (sound : ∀ x ∈ xs, x.Sound) :
    (xs.map Worker.aborted).flatMap Worker.carries = xs.flatMap Worker.carries := by
  rw [List.flatMap_map]
  exact List.flatMap_congr fun x mem => Worker.carries_aborted (sound x mem)

theorem published_of_tasks (tasks : d' = d ∨ d' = d.abort)
    (distinct : (d.published ++ d.upcoming).Nodup) :
    d'.published = d.published ∧ (d'.published ++ d'.upcoming).Nodup := by
  obtain rfl | rfl := tasks
  · exact ⟨rfl, distinct⟩
  · simp only [Discovery.abort]
    split
    · exact ⟨rfl, distinct⟩
    · refine ⟨rfl, ?_⟩
      simp only [Discovery.upcoming, List.append_nil]
      exact (List.nodup_append.mp distinct).1

theorem Tallied.discovery (tallied : Tallied r d c) {hub : Hub} (moved : d.Moves w r.hub hub d') :
    Tallied { r with hub, discovery := some d' } d' c := by
  obtain ⟨dropped, abandoned, ledger⟩ := tallied.ledger
  obtain ⟨moves, discovered, transformed, same, counted, failed, failures⟩ := moved.ledger
  exact
    { tallied with
      discovered := by have := tallied.discovered; change hub.stats.discovered = _; omega
      transformed := by
        change hub.stats.transformed = hub.artifacts.buffer.length + _
        rw [transformed, moved.artifacts.1]
        exact tallied.transformed
      ledger := by
        refine ⟨dropped, same.trans abandoned, List.perm_iff_count.mpr fun p => ?_⟩
        have before := ledger.count_eq p
        have step := moves.count_eq p
        simp only [List.count_append, carriedIds] at before step ⊢
        omega
      taken := by
        have := tallied.taken
        change _ = _ + hub.stats.consumed + hub.stats.rejected
        omega
      failed := by
        change hub.stats.failed = hub.stats.failures.length
        rw [failed, failures, tallied.failed]
      distinct := moved.distinct tallied.distinct }

theorem Tallied.worker (tallied : Tallied r d c) (order : InOrder r d c) {i : Nat} {x x' : Worker}
    {hub : Hub} (at_ : r.workers[i]? = some x) (moved : x.Moves w r.settings r.hub hub x') :
    Tallied { r with hub, workers := r.workers.set i x' } d c := by
  obtain ⟨dropped, abandoned, ledger⟩ := tallied.ledger
  have sound := tallied.workers x (List.mem_of_getElem? at_)
  obtain ⟨more, abandoned', moves⟩ := moved.ledger sound (order.artifacts_open at_ moved)
  obtain ⟨discovered, counted, transformed, failed⟩ := moved.counters
  -- the ledger is compared with the worker that steps taken out of the others
  obtain ⟨rest, before, after⟩ := exists_perm_set at_ x'
  exact
    { tallied with
      discovered := discovered.trans tallied.discovered
      transformed := by
        have := tallied.transformed
        change hub.stats.transformed = hub.artifacts.buffer.length + _
        omega
      ledger := by
        refine ⟨dropped ++ more, ?_, List.perm_iff_count.mpr fun p => ?_⟩
        · change hub.stats.abandoned = _
          rw [abandoned', abandoned, List.length_append]
        · have total := ledger.count_eq p
          have step := moves.count_eq p
          have old := (before.flatMap_right Worker.carries).count_eq p
          have new := (after.flatMap_right Worker.carries).count_eq p
          simp only [List.count_append, carriedIds, List.flatMap_cons] at total step old new ⊢
          omega
      taken := by
        have := tallied.taken
        change _ = _ + hub.stats.consumed + hub.stats.rejected
        omega
      failed := by
        have := tallied.failed
        change hub.stats.failed = hub.stats.failures.length
        omega
      workers := by
        intro y mem
        obtain old | rfl := List.mem_or_eq_of_mem_set mem
        · exact tallied.workers y old
        · exact moved.sound sound }

theorem Tallied.consumption_moves (tallied : Tallied r d c) {hub : Hub}
    (moved : c.Moves w r.hub hub c') : Tallied { r with hub, consumption := some c' } d c' := by
  obtain ⟨dropped, abandoned, ledger⟩ := tallied.ledger
  obtain ⟨moves, discovered, same, transformed, sizes, failed, failures⟩ := moved.ledger
  have counted := moved.counters tallied.consumption
  exact
    { tallied with
      discovered := discovered.trans tallied.discovered
      transformed := by
        have := tallied.transformed
        change hub.stats.transformed = hub.artifacts.buffer.length + _
        omega
      ledger := by
        refine ⟨dropped, same.trans abandoned, List.perm_iff_count.mpr fun p => ?_⟩
        have before := ledger.count_eq p
        have step := moves.count_eq p
        simp only [List.count_append, carriedIds] at before step ⊢
        omega
      taken := by
        have := tallied.taken
        change _ = _ + hub.stats.consumed + hub.stats.rejected
        omega
      failed := by
        change hub.stats.failed = hub.stats.failures.length
        rw [failed, failures, tallied.failed]
      consumption := moved.sound tallied.consumption }

/-- Ending a task from outside leaves what it carries with it. -/
theorem Tallied.carriedIds_attended (tallied : Tallied r d c) (attended : r.Attended r') :
    r'.carriedIds = r.carriedIds ∧ ∀ x ∈ r'.workers, x.Sound := by
  obtain ⟨same, _⟩ | ⟨_, ended, _⟩ := attended.workers
  · exact ⟨by rw [carriedIds, same, carriedIds], fun x mem => tallied.workers x (same ▸ mem)⟩
  · refine ⟨by rw [carriedIds, ended, flatMap_carries_aborted tallied.workers, carriedIds], ?_⟩
    intro y mem
    rw [ended] at mem
    obtain ⟨x, alive, rfl⟩ := List.mem_map.mp mem
    exact Worker.sound_aborted (tallied.workers x alive)

theorem carried_of_tasks (tasks : c' = c ∨ c' = c.abort) (sound : c.Sound) :
    c'.taken = c.taken ∧ c'.carried = c.carried ∧ c'.Sound := by
  obtain rfl | rfl := tasks
  · exact ⟨rfl, rfl, sound⟩
  · exact ⟨c.taken_abort, Consumption.carried_abort sound, Consumption.sound_abort sound⟩

theorem Tallied.supervisor (tallied : Tallied r d c) (h : Supervises r d c r' d' c') :
    Tallied r' d' c' := by
  obtain ⟨dropped, abandoned, ledger⟩ := tallied.ledger
  have attended := h.attended
  have entered : r'.hub.entered = r.hub.entered := by
    rw [Hub.entered, attended.stats, attended.work.1, attended.artifacts.1, Hub.entered]
  obtain ⟨carriedIds, workers⟩ := tallied.carriedIds_attended attended
  obtain ⟨published, distinct⟩ := published_of_tasks h.tasks.1 tallied.distinct
  obtain ⟨taken, carried, consumption⟩ := carried_of_tasks h.tasks.2 tallied.consumption
  exact
    { discovered := by rw [attended.stats, published, tallied.discovered]
      transformed := by rw [attended.stats, attended.artifacts.1, taken, tallied.transformed]
      ledger := by
        rw [attended.stats, published, entered, carriedIds, taken]
        exact ⟨dropped, abandoned, ledger⟩
      taken := by rw [attended.stats, taken, carried, tallied.taken]
      failed := by rw [attended.stats, tallied.failed]
      distinct, workers, consumption }

theorem Tallied.works (tallied : Tallied r d c) (order : InOrder r d c)
    (h : Works w r d c r' d' c') : Tallied r' d' c' := by
  cases h with
  | discovery _ _ moved => exact tallied.discovery moved
  | worker _ _ _ _ at_ moved => exact tallied.worker order at_ moved
  | consumption _ _ moved => exact tallied.consumption_moves moved
  | supervisor supervises => exact tallied.supervisor supervises

/-- The summary is made once, of the counters as they are from then on. -/
structure Reported (r : Run) : Prop where
  stopped : r.supervisor.phase = .stopped ↔ r.supervisor.summary.isSome
  counters : ∀ sm, r.supervisor.summary = some sm →
    ∃ elapsed cancelled, sm = r.hub.stats.summary elapsed cancelled

theorem Supervises.summary (h : Supervises r d c r' d' c') :
    r.supervisor.phase ≠ .stopped ∧
      (r'.supervisor.phase ≠ .stopped ∧ r'.supervisor.summary = r.supervisor.summary ∨
        r'.supervisor.phase = .stopped ∧ ∃ elapsed cancelled,
          r'.supervisor.summary = some (r'.hub.stats.summary elapsed cancelled)) := by
  cases h with
  | discoveryOver _ phase | discoveryJoined _ phase | interrupted phase =>
      exact ⟨by simp [phase], .inl ⟨by simp [noted, drain, enter, arm], rfl⟩⟩
  | discoveryExpired phase | workersExpired phase =>
      rw [expire, abortWorkers_eq]
      exact ⟨by simp [phase], .inl ⟨by simp [abortDiscovery, enter, phase], rfl⟩⟩
  | workerJoined _ _ _ phase | workersGone _ phase =>
      exact ⟨by simp [phase], .inl ⟨by simp [noted, enter, phase], rfl⟩⟩
  | armed phase =>
      have unstopped : r.supervisor.phase ≠ .stopped := by
        obtain phase | ⟨limit, phase⟩ := phase <;> simp [phase]
      exact ⟨unstopped, .inl ⟨unstopped, rfl⟩⟩
  | consumptionJoined _ _ phase | consumptionExpired _ phase =>
      exact ⟨by simp [phase], .inr ⟨rfl, _, _, rfl⟩⟩

theorem Reported.works (reported : Reported r) (order : InOrder r d c)
    (h : Works w r d c r' d' c') : Reported r' := by
  have finished {sm : Summary} (eq : r.supervisor.summary = some sm) :
      d.Over ∧ c.Over ∧ ∀ x ∈ r.workers, x.Over := by
    have phase := reported.stopped.mpr (by rw [eq]; rfl)
    exact ⟨order.discovery_over (by rw [phase]; rfl), order.consumption_over phase,
      order.workers_over (.inr (by rw [phase]; rfl))⟩
  cases h with
  | discovery hub _ moved =>
      exact ⟨reported.stopped, fun sm eq => absurd (finished eq).1 moved.not_over⟩
  | worker i x _ hub at_ moved =>
      exact ⟨reported.stopped, fun sm eq =>
        absurd ((finished eq).2.2 x (List.mem_of_getElem? at_)) moved.not_over⟩
  | consumption hub _ moved =>
      exact ⟨reported.stopped, fun sm eq => absurd (finished eq).2.1 moved.not_over⟩
  | supervisor supervises =>
      obtain ⟨before, ⟨after, same⟩ | ⟨after, elapsed, cancelled, made⟩⟩ := supervises.summary
      · have none : r'.supervisor.summary = none :=
          same.trans (Option.not_isSome_iff_eq_none.mp (mt reported.stopped.mpr before))
        exact ⟨by simp [none, after], by simp [none]⟩
      · refine ⟨by simp [made, after], fun sm eq => ⟨elapsed, cancelled, ?_⟩⟩
        exact Option.some.inj (eq.symm.trans made)

theorem reported_launch (s : Settings) (now : Nat) (cancelled : Bool) :
    Reported (fresh s now cancelled).launch :=
  ⟨by simp [launch, enter, fresh], by simp [launch, enter, fresh]⟩

/-- How many workers hold an item whose fate is open. -/
def heldByWorkers (r : Run) : Nat := r.workers.countP (·.held?.isSome)

def lostWithWorkers (r : Run) : Nat := r.workers.countP (·.lost.isSome)

/-- Whether consumption holds a set, as a number. -/
def heldByConsumption (r : Run) : Nat := (r.consumption.bind Consumption.held?).toList.length

def lostWithConsumption (r : Run) : Nat := (r.consumption.bind Consumption.lost).toList.length

/-- What a summary says of a run that is over. -/
structure Balances (r : Run) (sm : Summary) : Prop where
  within : sm.transformed + sm.failed + sm.abandoned ≤ sm.discovered
  unaccounted : sm.unaccounted = r.hub.work.size + r.lostWithWorkers
  judged : sm.consumed + sm.rejected ≤ sm.transformed
  failed : sm.failures.length = sm.failed
  distinct : (sm.failures.map (·.id)).Nodup

/-- The counters of a run account for every item. -/
structure Conserves (r : Run) : Prop where
  discovered : r.hub.stats.discovered =
    r.hub.work.size + r.heldByWorkers + r.hub.stats.transformed + r.hub.stats.failed +
      r.hub.stats.abandoned + r.lostWithWorkers
  transformed : r.hub.stats.transformed =
    r.hub.artifacts.size + r.heldByConsumption + r.hub.stats.consumed + r.hub.stats.rejected +
      r.lostWithConsumption
  failed : r.hub.stats.failures.length = r.hub.stats.failed
  failures_nodup : (r.hub.stats.failures.map (·.id)).Nodup
  lost_worker : ∀ x ∈ r.workers, x.lost.isSome →
    x.point = .ended .panicked ∨ x.point = .ended .aborted
  lost_consumption : ∀ c, r.consumption = some c → c.lost.isSome →
    c.point = .ended .panicked ∨ c.point = .ended .aborted
  unfinished : r.hub.work.size + r.heldByWorkers + r.lostWithWorkers + r.hub.artifacts.size +
    r.heldByConsumption + r.lostWithConsumption ≤
      2 * r.settings.queueCapacity + r.settings.workers + 1
  summary : ∀ sm, r.supervisor.summary = some sm → r.Balances sm

theorem length_carried {xs : List Worker} :
    (xs.flatMap Worker.carries).length =
      xs.countP (·.held?.isSome) + xs.countP (·.lost.isSome) := by
  induction xs with
  | nil => rfl
  | cons x xs ih =>
      simp only [List.flatMap_cons, List.length_append, Worker.carries, List.countP_cons, ih]
      cases x.held? <;> cases x.lost <;> simp <;> omega

theorem length_carried_le {xs : List Worker} (sound : ∀ x ∈ xs, x.Sound) :
    (xs.flatMap Worker.carries).length ≤ xs.length := by
  induction xs with
  | nil => exact Nat.le_refl 0
  | cons x xs ih =>
      have rest := ih fun y mem => sound y (List.mem_cons_of_mem x mem)
      have one : x.carries.length ≤ 1 := by
        cases lost : x.lost with
        | none =>
            simp only [Worker.carries, lost, Option.toList_none, List.append_nil]
            cases x.held? <;> simp
        | some id =>
            obtain ended | ended := sound x List.mem_cons_self (by rw [lost]; rfl) <;>
              simp [Worker.carries, Worker.held?, ended, lost]
      rw [List.flatMap_cons, List.length_append, List.length_cons]
      omega

theorem carried_le_one {c : Consumption} (sound : c.Sound) : c.carried ≤ 1 := by
  cases lost : c.lost with
  | none =>
      simp only [Consumption.carried, lost, Option.toList_none, List.length_nil]
      cases c.held? <;> simp
  | some set =>
      obtain ended | ended := sound (by rw [lost]; rfl) <;>
        simp [Consumption.carried, Consumption.held?, ended, lost]

theorem heldByWorkers_of_over (finished : ∀ x ∈ r.workers, x.Over) : r.heldByWorkers = 0 := by
  apply List.countP_eq_zero.mpr
  intro x mem
  obtain ⟨e, ended⟩ := finished x mem
  simp [Worker.held?, ended]

theorem Tallied.discovered_eq (tallied : Tallied r d c) :
    r.hub.stats.discovered =
      r.hub.work.size + r.heldByWorkers + r.hub.stats.transformed + r.hub.stats.failed +
        r.hub.stats.abandoned + r.lostWithWorkers := by
  obtain ⟨dropped, abandoned, ledger⟩ := tallied.ledger
  have total := ledger.length_eq
  have carried : r.carriedIds.length = r.heldByWorkers + r.lostWithWorkers := length_carried
  have transformed := tallied.transformed
  have failed := tallied.failed
  rw [tallied.discovered, total]
  simp only [Hub.entered, List.length_append, List.length_map, carried, Queue.size]
  omega

theorem Tallied.failures_nodup (tallied : Tallied r d c) :
    (r.hub.stats.failures.map (·.id)).Nodup := by
  obtain ⟨dropped, _, ledger⟩ := tallied.ledger
  have distinct := ledger.nodup_iff.mp (List.nodup_append.mp tallied.distinct).1
  simp only [Hub.entered, List.append_assoc] at distinct
  exact (List.nodup_append.mp (List.nodup_append.mp distinct).2.1).1

theorem Tallied.conserves (tallied : Tallied r d c) (coherent : Coherent s r d c)
    (reported : Reported r) : Conserves r := by
  obtain ⟨launched, fits, order⟩ := coherent
  have discovered := tallied.discovered_eq
  have carried : r.heldByConsumption + r.lostWithConsumption = c.carried := by
    simp [heldByConsumption, lostWithConsumption, launched.consumption, Consumption.carried]
  have transformed : r.hub.stats.transformed =
      r.hub.artifacts.size + r.heldByConsumption + r.hub.stats.consumed + r.hub.stats.rejected +
        r.lostWithConsumption := by
    have counted := tallied.transformed
    have taken := tallied.taken
    simp only [Queue.size]
    omega
  refine ⟨discovered, transformed, tallied.failed.symm, tallied.failures_nodup, tallied.workers,
    ?_, ?_, ?_⟩
  · intro c' eq
    obtain rfl : c = c' := Option.some.inj (launched.consumption.symm.trans eq)
    exact tallied.consumption
  · have workers : r.heldByWorkers + r.lostWithWorkers ≤ s.workers := by
      have few := length_carried_le tallied.workers
      rw [length_carried, fits.crew] at few
      exact few
    have one := carried_le_one tallied.consumption
    have work := fits.work_size
    have artifacts := fits.artifacts_size
    rw [fits.work_capacity] at work
    rw [fits.artifacts_capacity] at artifacts
    rw [fits.settings]
    omega
  · intro sm eq
    have phase := reported.stopped.mpr (by rw [eq]; rfl)
    have idle := heldByWorkers_of_over (order.workers_over (.inr (by rw [phase]; rfl)))
    obtain ⟨elapsed, cancelled, rfl⟩ := reported.counters sm eq
    have sorted := List.mergeSort_perm r.hub.stats.failures fun a b => decide (a.id ≤ b.id)
    refine ⟨?_, ?_, ?_, sorted.length_eq.trans tallied.failed.symm,
      (sorted.map _).nodup_iff.mpr tallied.failures_nodup⟩
    · simp only [Stats.summary]
      omega
    · simp only [Summary.unaccounted, Stats.summary]
      omega
    · simp only [Stats.summary]
      omega

/-- Every run conserves its items at any time, and its summary says so. -/
theorem items_conserved {r₀ : Run} (started : begin s = .ok r₀)
    (reached : Relation.ReflTransGen (Change w) r₀ r) : Conserves r := by
  have invariant := launched_induction (w := w) (s := s)
    (P := fun r d c => Coherent s r d c ∧ Tallied r d c ∧ Reported r)
    (fun now cancelled =>
      ⟨coherent_launch s now cancelled, tallied_launch s now cancelled,
        reported_launch s now cancelled⟩)
    (fun ⟨coherent, tallied, reported⟩ works =>
      ⟨coherent.works works, tallied.works coherent.order works,
        reported.works coherent.order works⟩)
    (fun ⟨coherent, tallied, reported⟩ =>
      ⟨coherent.cancel, { tallied with }, ⟨reported.stopped, reported.counters⟩⟩)
    (fun time _ ⟨coherent, tallied, reported⟩ =>
      ⟨coherent.clock time, { tallied with }, ⟨reported.stopped, reported.counters⟩⟩)
    started reached
  obtain ⟨now, cancelled, rfl⟩ | ⟨d, c, _, coherent, tallied, reported⟩ := invariant
  · exact ⟨rfl, rfl, rfl, List.nodup_nil, by simp [fresh], by simp [fresh], Nat.zero_le _,
      by simp [fresh]⟩
  · exact tallied.conserves coherent reported

/-- A worker breaks down on the first of three items and takes it along, while the second is
queued. -/
theorem items_conserved_lost_item :
    ∃ r, begin { queueCapacity := 1 } = .ok (fresh { queueCapacity := 1 } 0 false) ∧
      Relation.ReflTransGen (Change (slowWorld (some "a")))
        (fresh { queueCapacity := 1 } 0 false) r ∧
      r.lostWithWorkers = 1 ∧ r.hub.work.size = 1 ∧ Conserves r := by
  let later : List Action :=
    [.discovery, .worker 0, .worker 0, .discovery, .tick 10, .worker 0]
  have started : begin { queueCapacity := 1 } = .ok (fresh { queueCapacity := 1 } 0 false) := rfl
  have arrives : ((listed { queueCapacity := 1 }).follow (slowWorld (some "a")) later).any
      (fun r => r.lostWithWorkers = 1 && r.hub.work.size = 1) := by decide
  obtain ⟨r, arrives, holds⟩ := (Option.any_eq_true _ _).mp arrives
  simp only [Bool.and_eq_true, decide_eq_true_eq] at holds
  have reached := reaches_of_reachable
    (reachable_of_follow ((follow_listed _ (some "a") later).trans arrives))
  exact ⟨r, started, reached, holds.1, holds.2, items_conserved started reached⟩

end Run

end DecodePipeline
