import DecodePipeline.Proofs.Run.Conservation
import DecodePipeline.Proofs.Run.Deadlock

/-!
A batch run that nobody disturbs, with collaborators that answer every call, delivers: it
publishes the first ids of the listing up to its limit, brings each of them to one outcome,
and stops without a fault, whatever the order of its steps.
-/

namespace DecodePipeline

/-- The distinct ids of a listing in byte order. -/
def Lists (sources : List SourceEntry) (ids : List String) : Prop :=
  ids.Pairwise (· < ·) ∧ ∀ p, p ∈ ids ↔ p ∈ sources.map (·.id)

/-- The catalog gives a listing, and every call of the other collaborators ends without
breaking down; the decoder does not say that a run was cancelled that was not. -/
structure World.Delivers (w : World) (s : Settings) (sources : List SourceEntry) : Prop where
  catalog : (w.catalog 0).delay.isSome ∧ (w.catalog 0).reply = .gives sources
  answers : w.Answers s.transformTimeout
    (fun timed reply => timed ∧ reply ≠ .panics ∧ reply ≠ .fails .cancelled)
    (fun timed reply => timed ∧ reply ≠ .panics)

namespace Run

variable {w : World} {s : Settings} {sources : List SourceEntry} {r r' : Run} {d d' : Discovery}
  {c c' : Consumption}

/-- The ids that a batch run publishes. -/
def wanted (s : Settings) (sources : List SourceEntry) : List String :=
  let ids := (canonicalOrder sources).map (·.id)
  ids.take (s.maxItems.getD ids.length)

/-- How far discovery is with its listing. -/
def OnCourse (s : Settings) (sources : List SourceEntry) (hub : Hub) (d : Discovery) : Prop :=
  match d.point with
  | .scanning => d.published = [] ∧ hub.scans = []
  | .listing due reply => d.published = [] ∧ due.isSome ∧ reply = .gives sources
  | .publishing rest =>
    d.published ++ rest.map (·.id) = (canonicalOrder sources).map (·.id) ∧
      ∀ limit, s.maxItems = some limit → d.published.length ≤ limit
  | .resting _ => False
  | .ended e => (∃ n, e = .returned n) ∧ d.published = wanted s sources

/-- A batch run that is not disturbed and in which nothing broke down. -/
structure Undisturbed (s : Settings) (sources : List SourceEntry) (r : Run) (d : Discovery)
    (c : Consumption) : Prop where
  live : r.hub.cancelled = false
  faultless : r.supervisor.firstFault = none
  abandoned : r.hub.stats.abandoned = 0
  course : OnCourse s sources r.hub d
  workers : ∀ x ∈ r.workers, ∀ e, x.point = .ended e →
    (∃ n, e = .returned n) ∧ r.hub.work.closed ∧ r.hub.work.buffer = []
  consumption : ∀ e, c.point = .ended e → ∃ n, e = .returned n

theorem undisturbed_launch (s : Settings) (sources : List SourceEntry) (now : Nat) :
    Undisturbed s sources (fresh s now false).launch (firstDiscovery s) (firstConsumption s) where
  live := rfl
  faultless := rfl
  abandoned := rfl
  course := ⟨rfl, rfl⟩
  workers x mem e ended := by
    obtain rfl := List.eq_of_mem_replicate mem
    cases ended
  consumption e ended := by cases ended

theorem Undisturbed.undue (quiet : Undisturbed s sources r d c) (order : InOrder r d c) :
    r.supervisor.deadline = none ∧ r.supervisor.expired = false := by
  have undue := order.undue quiet.live
  refine ⟨undue, Bool.eq_false_iff.mpr ?_⟩
  intro expired
  have := order.expired expired
  rw [undue] at this
  cases this

/-- The work queue is open as long as discovery has not ended. -/
theorem Undisturbed.work_open (quiet : Undisturbed s sources r d c) (coherent : Coherent s r d c)
    (running : ¬d.Over) : r.hub.work.closed = false := by
  have order := coherent.order
  apply Bool.eq_false_iff.mpr
  intro closed
  cases phase : r.supervisor.phase with
  | idle => exact coherent.launched.phase.1 phase
  | launching => exact coherent.launched.phase.2 phase
  | watching => exact running (order.work_open phase closed)
  | awaitingDiscovery =>
      have set := order.interrupted phase
      rw [(quiet.undue order).1] at set
      cases set
  | awaitingWorkers | awaitingConsumption | stopped =>
      exact running (order.discovery_over (by rw [phase]; rfl))

theorem fresh_of_unpublished (d : Discovery) (sources : List SourceEntry)
    (none : d.published = []) : d.fresh sources = canonicalOrder sources := by
  simp [Discovery.fresh, none]

/-- What is published when a scan is over is what was wanted. -/
theorem published_eq_wanted {rest : List SourceEntry}
    (listed : d.published ++ rest.map (·.id) = (canonicalOrder sources).map (·.id))
    (within : ∀ limit, s.maxItems = some limit → d.published.length ≤ limit)
    (limit : d.maxItems = s.maxItems) (finished : rest = [] ∨ d.limitReached) :
    d.published = wanted s sources := by
  unfold wanted
  simp only
  rw [← listed]
  obtain rfl | reached := finished
  · rw [List.map_nil, List.append_nil]
    cases most : s.maxItems with
    | none => simp
    | some n => simpa [List.take_of_length_le] using (List.take_of_length_le (within n most)).symm
  · unfold Discovery.limitReached at reached
    rw [limit] at reached
    cases most : s.maxItems with
    | none => simp [most] at reached
    | some n =>
        simp only [most, Option.any_some, decide_eq_true_eq] at reached
        have exact_ : n = d.published.length := Nat.le_antisymm reached (within n most)
        simp [exact_]

theorem OnCourse.scans {hub hub' : Hub} (course : OnCourse s sources hub d)
    (scans : hub'.scans = hub.scans) : OnCourse s sources hub' d := by
  simp only [OnCourse, scans]
  exact course

theorem OnCourse.discovery {hub hub' : Hub} (course : OnCourse s sources hub d)
    (delivers : w.Delivers s sources) (batch : d.mode = .batch) (limit : d.maxItems = s.maxItems)
    (live : hub.cancelled = false) (open_ : hub.work.closed = false)
    (moved : d.Moves w hub hub' d') : OnCourse s sources hub' d' := by
  unfold OnCourse at course
  cases moved with
  | scan at_ =>
      rw [at_] at course
      have answer := delivers.catalog
      simp only [OnCourse, course.2, List.length_nil, isSome_dueAt]
      exact ⟨course.1, answer⟩
  | panic due at_ =>
      rw [at_] at course
      cases course.2.2
  | firstScanFails due messages at_ =>
      rw [at_] at course
      cases course.2.2
  | list due sources' at_ =>
      rw [at_] at course
      obtain ⟨none, _, same⟩ := course
      cases same
      simp only [OnCourse, fresh_of_unpublished d _ none, none, List.nil_append, List.length_nil]
      exact ⟨trivial, fun _ _ => Nat.zero_le _⟩
  | publish s' rest at_ below =>
      rw [at_] at course
      obtain ⟨listed, within⟩ := course
      refine ⟨by simpa using listed, ?_⟩
      intro limit' most
      simp only [Discovery.limitReached, limit, most, Option.any_some, decide_eq_false_iff_not]
        at below
      simp only [List.length_append, List.length_singleton]
      omega
  | giveUp _ _ _ _ cancelled => rw [live] at cancelled; contradiction
  | refused _ _ _ _ _ closed => rw [open_] at closed; contradiction
  | complete finished =>
      obtain ⟨rest, at_, finished⟩ | ⟨due, messages, at_, _, _⟩ := finished
      · rw [at_] at course
        exact ⟨⟨_, rfl⟩, published_eq_wanted course.1 course.2 limit finished⟩
      · rw [at_] at course
        cases course.2.2
  | rest interval _ polls => rw [batch] at polls; cases polls
  | stop due at_ | wake due at_ =>
      rw [at_] at course
      exact course.elim

/-- The answers that the calls of a delivering run have. -/
def Prompt (r : Run) (c : Consumption) : Prop :=
  Awaits (fun timed reply => timed ∧ reply ≠ .panics ∧ reply ≠ .fails .cancelled)
    (fun timed reply => timed ∧ reply ≠ .panics) r c

/-- A worker of an undisturbed run leaves only when no work is left, and gives
nothing up. -/
theorem Undisturbed.worker (quiet : Undisturbed s sources r d c) (order : InOrder r d c)
    (prompt : Prompt r c) {i : Nat} {x x' : Worker} {hub : Hub} (at_ : r.workers[i]? = some x)
    (moved : x.Moves w r.settings r.hub hub x') :
    hub.stats.abandoned = 0 ∧
      ∀ e, x'.point = .ended e →
        (∃ n, e = .returned n) ∧ r.hub.work.closed ∧ r.hub.work.buffer = [] := by
  have mem : x ∈ r.workers := List.mem_of_getElem? at_
  have live := quiet.live
  have opened := order.artifacts_open at_ moved
  cases moved with
  | leave _ finished =>
      refine ⟨quiet.abandoned, ?_⟩
      intro e ended
      cases ended
      exact ⟨⟨_, rfl⟩, finished.resolve_left (by simp [live])⟩
  | take | hand => exact ⟨quiet.abandoned, fun e ended => by cases ended⟩
  | attempt _ _ _ moved | transformed _ _ _ moved =>
      exact ⟨by rw [moved.alike.stats, quiet.abandoned], fun e ended => by cases ended⟩
  | failed _ _ _ _ moved =>
      refine ⟨?_, fun e ended => by cases ended⟩
      simp [Hub.count, Stats.addFailed, moved.alike.stats, quiet.abandoned]
  | abandon a busy moved =>
      exfalso
      cases moved with
      | giveUpWaiting _ cancelled | heed _ _ _ cancelled | giveUpPausing _ _ cancelled =>
          rw [live] at cancelled
          contradiction
      | replyCancelled item due heeds =>
          exact (prompt.workers x mem item due heeds _ busy).2.2 rfl
  | panic a busy moved =>
      exfalso
      cases moved with
      | panic item due heeds => exact (prompt.workers x mem item due heeds _ busy).2.1 rfl
  | abandonSet _ _ cancelled => rw [live] at cancelled; contradiction
  | refused _ _ _ closed => rw [opened] at closed; contradiction

theorem Undisturbed.supervisor (quiet : Undisturbed s sources r d c) (order : InOrder r d c)
    (h : Supervises r d c r' d' c') : Undisturbed s sources r' d' c' := by
  obtain ⟨undue, unexpired⟩ := quiet.undue order
  have live := quiet.live
  cases h with
  | discoveryOver e phase ended =>
      have course := quiet.course
      simp only [OnCourse, ended] at course
      obtain ⟨⟨n, rfl⟩, _⟩ := course
      exact
        { quiet with
          live := by simpa [noted, drain, enter] using live
          faultless := by simpa [noted, drain, enter, discoveryFault] using quiet.faultless
          workers := fun x mem e finished =>
            ⟨(quiet.workers x mem e finished).1, rfl, (quiet.workers x mem e finished).2.2⟩ }
  | interrupted _ cancelled | armed _ cancelled => rw [live] at cancelled; contradiction
  | discoveryJoined _ phase | discoveryExpired phase =>
      have set := order.interrupted phase
      rw [undue] at set
      cases set
  | workerJoined i x e phase unseen at_ ended =>
      obtain ⟨⟨n, rfl⟩, _⟩ := quiet.workers x (List.mem_of_getElem? at_) e ended
      exact
        { quiet with
          live := by simpa [noted, endingFault] using live
          faultless := by simpa [noted, endingFault] using quiet.faultless }
  | workersGone => exact { quiet with }
  | workersExpired _ _ now =>
      rw [undue] at now
      cases now
  | consumptionJoined limit e phase ended =>
      obtain ⟨n, rfl⟩ := quiet.consumption e ended
      exact
        { quiet with
          live := by simpa [noted, stop, enter] using live
          faultless := by simpa [noted, endingFault, stop, enter] using quiet.faultless }
  | consumptionExpired limit phase _ now =>
      rw [unexpired, undue] at now
      cases now

theorem Undisturbed.works (quiet : Undisturbed s sources r d c) (coherent : Coherent s r d c)
    (prompt : Prompt r c) (batch : s.mode = .batch) (delivers : w.Delivers s sources)
    (h : Works w r d c r' d' c') : Undisturbed s sources r' d' c' := by
  have order := coherent.order
  cases h with
  | discovery hub _ moved =>
      have kept := moved.kept
      have open_ := quiet.work_open coherent moved.not_over
      exact
        { quiet with
          live := kept.cancelled.trans quiet.live
          abandoned := moved.ledger.2.2.2.1.trans quiet.abandoned
          course := quiet.course.discovery delivers (coherent.fits.mode.trans batch)
            coherent.fits.maxItems quiet.live open_ moved
          workers := by
            intro x mem e ended
            obtain ⟨_, closed, _⟩ := quiet.workers x mem e ended
            rw [open_] at closed
            contradiction }
  | worker i x x' hub at_ moved =>
      obtain ⟨abandoned, left⟩ := quiet.worker order prompt at_ moved
      obtain ⟨closed, empty⟩ := moved.work
      exact
        { quiet with
          live := moved.kept.cancelled.trans quiet.live
          abandoned := abandoned
          course := quiet.course.scans moved.scans
          workers := by
            intro y mem e ended
            have before : (∃ n, e = .returned n) ∧ r.hub.work.closed ∧ r.hub.work.buffer = [] := by
              obtain old | rfl := List.mem_or_eq_of_mem_set mem
              · exact quiet.workers y old e ended
              · exact left e ended
            exact ⟨before.1, closed.trans before.2.1, empty before.2.2⟩ }
  | consumption hub c' moved =>
      exact
        { quiet with
          live := moved.kept.cancelled.trans quiet.live
          abandoned := moved.ledger.2.2.1.trans quiet.abandoned
          course := quiet.course.scans moved.scans
          workers := by
            intro x mem e ended
            rw [moved.work.1]
            exact quiet.workers x mem e ended
          consumption := by
            intro e ended
            cases moved with
            | leave => cases ended; exact ⟨_, rfl⟩
            | panic set due at_ => exact absurd rfl (prompt.consumption set due _ at_).2
            | take | reject | reset | offer | offerAfterReset | refuse | accept => cases ended }
  | supervisor supervises => exact quiet.supervisor order supervises

/-- An undisturbed run does not jam: consumption waits until the artifact queue is closed,
and the workers until the work queue is. -/
theorem Undisturbed.not_jammed (quiet : Undisturbed s sources r d c) (coherent : Coherent s r d c)
    (positive : 0 < s.queueCapacity) (workers : 0 < s.workers) : ¬Jammed r d c := by
  intro jam
  have unheld (x : Worker) : ¬x.Held r.hub := by
    intro held
    obtain ⟨e, ended⟩ := jam.consumption_over coherent positive held
    obtain ⟨n, rfl⟩ := quiet.consumption e ended
    have closed := (coherent.order.consumption_left n ended).1
    rw [held.2.2.1] at closed
    contradiction
  obtain ⟨_, held⟩ | ⟨_, ⟨x, _, held⟩, _⟩ := jam.supervisor
  · have some : 0 < r.workers.length := by rw [coherent.fits.crew]; exact workers
    obtain ⟨e, ended⟩ := (jam.workers r.workers[0] (List.getElem_mem some)).resolve_right (unheld _)
    have closed := (quiet.workers _ (List.getElem_mem some) e ended).2.1
    rw [held.2.2.2.1] at closed
    contradiction
  · exact unheld x held

/-- All that holds of a delivering run in each of its states. -/
structure Delivering (s : Settings) (sources : List SourceEntry) (r : Run) (d : Discovery)
    (c : Consumption) : Prop where
  coherent : Coherent s r d c
  tallied : Tallied r d c
  reported : Reported r
  prompt : Prompt r c
  undisturbed : Undisturbed s sources r d c

theorem Delivering.works (delivering : Delivering s sources r d c) (batch : s.mode = .batch)
    (delivers : w.Delivers s sources) (h : Works w r d c r' d' c') :
    Delivering s sources r' d' c' := by
  obtain ⟨coherent, tallied, reported, prompt, undisturbed⟩ := delivering
  have answers := delivers.answers
  rw [← coherent.fits.settings] at answers
  exact ⟨coherent.works h, tallied.works coherent.order h, reported.works coherent.order h,
    prompt.works answers h, undisturbed.works coherent prompt batch delivers h⟩

theorem Delivering.clock (delivering : Delivering s sources r d c) (time : Nat) :
    Delivering s sources (setClock time r) d c := by
  obtain ⟨coherent, tallied, reported, prompt, undisturbed⟩ := delivering
  exact ⟨coherent.clock time, { tallied with }, ⟨reported.stopped, reported.counters⟩,
    { prompt with }, { undisturbed with }⟩

/-- What a delivering run leaves: every published id came to one outcome, and the summary
says so. -/
structure Delivered (s : Settings) (sources : List SourceEntry) (r : Run) : Prop where
  stopped : r.lifecycle = .stopped
  faultless : r.supervisor.firstFault = none
  outcome : ∃ d c sm ids, r.discovery = some d ∧ r.consumption = some c ∧
    r.supervisor.summary = some sm ∧ Lists sources ids ∧
    d.published = ids.take (s.maxItems.getD ids.length) ∧
    (sm.failures.map (·.id) ++ c.taken.map (·.itemId)).Perm d.published ∧
    sm.discovered = d.published.length ∧ sm.discovered = sm.transformed + sm.failed ∧
    sm.transformed = sm.consumed + sm.rejected ∧ sm.abandoned = 0 ∧ sm.unaccounted = 0

/-- Nothing is left with the tasks when the supervisor stops. -/
theorem Delivering.nothing_left (delivering : Delivering s sources r d c) (workers : 0 < s.workers)
    (phase : r.supervisor.phase = .stopped) :
    r.hub.work.buffer = [] ∧ r.carriedIds = [] ∧ r.hub.artifacts.buffer = [] ∧ c.carried = 0 := by
  obtain ⟨coherent, tallied, _, _, quiet⟩ := delivering
  have order := coherent.order
  have finished := order.workers_over (.inr (by rw [phase]; rfl))
  have some : 0 < r.workers.length := by rw [coherent.fits.crew]; exact workers
  obtain ⟨e, ended⟩ := finished r.workers[0] (List.getElem_mem some)
  refine ⟨(quiet.workers _ (List.getElem_mem some) e ended).2.2, ?_, ?_, ?_⟩
  · apply List.flatMap_eq_nil_iff.mpr
    intro x mem
    obtain ⟨e, ended⟩ := finished x mem
    obtain ⟨⟨n, rfl⟩, _⟩ := quiet.workers x mem e ended
    cases lost : x.lost with
    | none => simp [Worker.carries, Worker.held?, ended, lost]
    | some id =>
        obtain at_ | at_ := tallied.workers x mem (by rw [lost]; rfl) <;> simp [ended] at at_
  · obtain ⟨e, ended⟩ := order.consumption_over phase
    obtain ⟨n, rfl⟩ := quiet.consumption e ended
    exact (order.consumption_left n ended).2
  · obtain ⟨e, ended⟩ := order.consumption_over phase
    obtain ⟨n, rfl⟩ := quiet.consumption e ended
    cases lost : c.lost with
    | none => simp [Consumption.carried, Consumption.held?, ended, lost]
    | some set =>
        obtain at_ | at_ := tallied.consumption (by rw [lost]; rfl) <;> simp [ended] at at_

theorem Delivering.delivered (delivering : Delivering s sources r d c) (workers : 0 < s.workers)
    (phase : r.supervisor.phase = .stopped) : Delivered s sources r := by
  obtain ⟨work, carried, artifacts, taken⟩ := delivering.nothing_left workers phase
  obtain ⟨coherent, tallied, reported, _, quiet⟩ := delivering
  have published : d.published = wanted s sources := by
    obtain ⟨e, ended⟩ := coherent.order.discovery_over (by rw [phase]; rfl)
    have course := quiet.course
    simp only [OnCourse, ended] at course
    exact course.2
  obtain ⟨sm, made⟩ := Option.isSome_iff_exists.mp (reported.stopped.mp phase)
  obtain ⟨elapsed, cancelled, rfl⟩ := reported.counters sm made
  obtain ⟨dropped, abandoned, ledger⟩ := tallied.ledger
  obtain rfl : dropped = [] := List.eq_nil_of_length_eq_zero (abandoned.symm.trans quiet.abandoned)
  have sorted := (List.mergeSort_perm r.hub.stats.failures fun a b => decide (a.id ≤ b.id)).map
    (·.id)
  have outcomes : (r.hub.stats.failures.map (·.id) ++ c.taken.map (·.itemId)).Perm d.published := by
    simpa [Hub.entered, work, carried, artifacts] using ledger.symm
  have count := outcomes.length_eq
  have discovered := tallied.discovered
  have transformed := tallied.transformed
  have judged := tallied.taken
  have failed := tallied.failed
  have none := quiet.abandoned
  simp only [List.length_append, List.length_map] at count
  rw [artifacts, List.length_nil] at transformed
  refine ⟨by rw [lifecycle, phase]; rfl, quiet.faultless, d, c, _, _, coherent.launched.discovery,
    coherent.launched.consumption, made,
    ⟨canonicalOrder_ids_rise sources, mem_ids_canonicalOrder sources⟩, published,
    (sorted.append_right _).trans outcomes, discovered, ?_, ?_, none, ?_⟩
  · simp only [Stats.summary]
    omega
  · simp only [Stats.summary]
    omega
  · simp only [Summary.unaccounted, Stats.summary]
    omega

theorem delivering_launch (s : Settings) (sources : List SourceEntry) (now : Nat) :
    Delivering s sources (fresh s now false).launch (firstDiscovery s) (firstConsumption s) :=
  ⟨coherent_launch s now false, tallied_launch s now false, reported_launch s now false,
    awaits_launch s now false, undisturbed_launch s sources now⟩

theorem Delivering.moves (delivering : Delivering s sources r d c) (positive : 0 < s.queueCapacity)
    (workers : 0 < s.workers) (unstopped : r.supervisor.phase ≠ .stopped) : ∃ r', Move w r r' := by
  obtain ⟨coherent, _, _, prompt, quiet⟩ := delivering
  have timed : Awaits (fun timed _ => timed) (fun timed _ => timed) r c :=
    ⟨fun x mem item due heeds reply busy => (prompt.workers x mem item due heeds reply busy).1,
      fun set due reply at_ => (prompt.consumption set due reply at_).1⟩
  have listing (due : Option Nat) (reply : Reply (List String) (List SourceEntry))
      (at_ : d.point = .listing due reply) : due.isSome := by
    have course := quiet.course
    simp only [OnCourse, at_] at course
    exact course.2.1
  exact (coherent.moves_or_jammed positive listing timed unstopped).resolve_right
    (quiet.not_jammed coherent positive workers)

/-- An undisturbed batch run with collaborators that answer comes to its end and
delivers. -/
theorem batch_delivers {r₀ : Run} (started : begin s = .ok r₀) (batch : s.mode = .batch)
    (delivers : w.Delivers s sources) : Inevitable w (Delivered s sources) r₀ := by
  obtain ⟨valid, positive, rfl⟩ := begin_eq started
  have workers := workers_pos_of_validate valid
  refine inevitable_of_launch fun time => inevitable_of_potential
    (fun r => ∃ d c, Delivering s sources r d c) _ (potential w) ?_ ?_ ?_ (fun _ _ => rfl) _
    ⟨_, _, delivering_launch s sources time⟩
  · rintro r ⟨d, c, delivering⟩ unfinished
    exact delivering.moves positive workers fun phase =>
      unfinished (delivering.delivered workers phase)
  · rintro r r' ⟨d, c, delivering⟩ _ move
    exact move.keeps (fun delivering => delivering.coherent.launched)
      (fun delivering h => delivering.works batch delivers h)
      (fun time delivering => delivering.clock time) delivering
  · rintro r r' a time ⟨d, c, delivering⟩ _ stepped
    have coherent := delivering.coherent.clock time
    obtain ⟨d', c', h⟩ := coherent.launched.works stepped
    refine h.potential_lt coherent.launched coherent.order ?_
    intro due resting
    exact absurd batch (coherent.fits.rests due resting)

/-- Two workers on the first two of three items, with queues of one place. -/
theorem batch_delivers_two_of_three :
    begin { workers := 2, queueCapacity := 1, maxItems := some 2 } =
        .ok (fresh { workers := 2, queueCapacity := 1, maxItems := some 2 } 0 false) ∧
      Inevitable (slowWorld none)
        (Delivered { workers := 2, queueCapacity := 1, maxItems := some 2 } threeSources)
        (fresh { workers := 2, queueCapacity := 1, maxItems := some 2 } 0 false) := by
  refine ⟨rfl, batch_delivers rfl rfl ⟨⟨rfl, rfl⟩, fun id n => ?_, ⟨rfl, by simp [slowWorld]⟩,
    fun n set => ⟨rfl, by simp [slowWorld]⟩⟩⟩
  have unlimited (timeout : Span) (id : String) (n : Nat) (long : 10 ≤ timeout.millis) :
      Attempts.limited timeout ((slowWorld none).decoder id n) =
        ⟨some 10, .gives ⟨[id], [id]⟩⟩ := by
    simp [Attempts.limited, slowWorld, long]
  rw [unlimited _ id n (by decide)]
  simp

end Run

end DecodePipeline
