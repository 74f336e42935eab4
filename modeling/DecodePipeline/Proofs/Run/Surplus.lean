import DecodePipeline.Proofs.Run.Conservation
import DecodePipeline.Proofs.Run.Recovery

/-!
How many items a jam takes. The full queue holds as many as it has places, one more waits for
room, and whoever should make room has left with one. So a batch run with fewer items does not
jam, and a breakdown that nobody else cancels ends it with the fault.
-/

namespace DecodePipeline

/-- A worker that leaves a run that is not cancelled, and that may yet have work, took an item
along or gave one up. -/
theorem Worker.Moves.toll {w : World} {s : Settings} {hub hub' : Hub} {x x' : Worker}
    (h : x.Moves w s hub hub' x') (live : hub.cancelled = false) (open_ : hub.work.closed = false)
    (opened : hub.artifacts.closed = false) (finished : x'.Over) :
    x'.lost.isSome ∨ 0 < hub'.stats.abandoned := by
  obtain ⟨e, ended⟩ := finished
  cases h with
  | leave _ left =>
      rw [live, open_] at left
      simp at left
  | abandon | abandonSet => exact .inr (Nat.succ_pos _)
  | panic a busy moved =>
      obtain ⟨item, of, _⟩ := moved.item
      left
      simp [cutOff, held?, busy, of]
  | refused _ _ _ closed => rw [opened] at closed; contradiction
  | take | attempt | transformed | failed | hand => cases ended

/-- No more is published than the limit allows. -/
def Discovery.Within (d : Discovery) : Prop :=
  ∀ limit, d.maxItems = some limit → d.published.length ≤ limit

theorem Discovery.Moves.within {w : World} {hub hub' : Hub} {d d' : Discovery}
    (h : d.Moves w hub hub' d') (within : d.Within) : d'.Within := by
  cases h with
  | publish s rest _ below =>
      intro limit most
      have below : ¬limit ≤ d.published.length := by
        simpa [limitReached, show d.maxItems = some limit from most] using below
      simp only [List.length_append, List.length_singleton]
      omega
  | scan | panic | firstScanFails | list | giveUp | refused | complete | rest | stop | wake =>
      exact within

namespace Run

variable {w : World} {s : Settings} {r r' : Run} {d d' : Discovery} {c c' : Consumption}

/-- As long as more may come, a worker that has left took an item along or gave one up, and
consumption that is not idle took a set. -/
structure Toll (r : Run) (c : Consumption) : Prop where
  workers : r.hub.cancelled = false → r.hub.work.closed = false → ∀ x ∈ r.workers, x.Over →
    x.lost.isSome ∨ 0 < r.hub.stats.abandoned
  consumption : r.hub.artifacts.closed = false → c.point ≠ .idle → c.taken ≠ []

theorem toll_launch (s : Settings) (now : Nat) (cancelled : Bool) :
    Toll (fresh s now cancelled).launch (firstConsumption s) where
  workers _ _ x mem finished := by
    obtain rfl := List.eq_of_mem_replicate mem
    obtain ⟨e, ended⟩ := finished
    cases ended
  consumption _ busy := absurd rfl busy

/-- The supervisor ends consumption only after it has closed the artifact queue. -/
theorem Supervises.artifacts_open (h : Supervises r d c r' d' c') (order : InOrder r d c)
    (opened : r'.hub.artifacts.closed = false) : c' = c ∧ r.hub.artifacts.closed = false := by
  cases h with
  | discoveryOver | interrupted | discoveryJoined | workerJoined | armed | consumptionJoined =>
      exact ⟨rfl, opened⟩
  | discoveryExpired | workersExpired =>
      rw [expire, abortWorkers_eq] at opened
      exact ⟨rfl, opened⟩
  | workersGone => cases opened
  | consumptionExpired limit phase =>
      have closed := order.artifacts_closed
      rw [phase] at closed
      change r.hub.artifacts.closed = false at opened
      rw [closed] at opened
      cases opened

theorem Toll.discovery {hub : Hub} (toll : Toll r c) (moved : d.Moves w r.hub hub d') :
    Toll { r with hub, discovery := some d' } c := by
  have kept := moved.kept
  constructor
  · intro live open_ x mem finished
    have before : r.hub.work.closed = false := by
      apply Bool.eq_false_iff.mpr
      intro closed
      rw [kept.work_closed closed] at open_
      cases open_
    rw [moved.ledger.2.2.2.1]
    exact toll.workers (kept.cancelled.symm.trans live) before x mem finished
  · intro opened
    exact toll.consumption (kept.artifacts_closed.symm.trans opened)

theorem Toll.worker {i : Nat} {x x' : Worker} {hub : Hub} (toll : Toll r c)
    (order : InOrder r d c) (tallied : Tallied r d c) (at_ : r.workers[i]? = some x)
    (moved : x.Moves w r.settings r.hub hub x') :
    Toll { r with hub, workers := r.workers.set i x' } c := by
  have kept := moved.kept
  have opened := order.artifacts_open at_ moved
  obtain ⟨dropped, abandoned, _⟩ :=
    moved.ledger (tallied.workers x (List.mem_of_getElem? at_)) opened
  constructor
  · intro live open_ y mem finished
    have live : r.hub.cancelled = false := kept.cancelled.symm.trans live
    have open_ : r.hub.work.closed = false := moved.work.1.symm.trans open_
    obtain old | same := List.mem_or_eq_of_mem_set mem
    · have grown : r.hub.stats.abandoned ≤ hub.stats.abandoned := by omega
      apply (toll.workers live open_ y old finished).imp_right
      intro lost
      exact Nat.lt_of_lt_of_le lost grown
    · rw [same] at finished ⊢
      exact moved.toll live open_ opened finished
  · intro opened
    exact toll.consumption (kept.artifacts_closed.symm.trans opened)

theorem Toll.consumption_moves {hub : Hub} (toll : Toll r c) (moved : c.Moves w r.hub hub c') :
    Toll { r with hub, consumption := some c' } c' := by
  have kept := moved.kept
  constructor
  · intro live open_ x mem finished
    rw [moved.ledger.2.2.1]
    rw [moved.work.1] at open_
    exact toll.workers (kept.cancelled.symm.trans live) open_ x mem finished
  · intro opened busy
    have before := toll.consumption (kept.artifacts_closed.symm.trans opened)
    cases moved with
    | take => simp
    | leave _ closed => rw [kept.artifacts_closed.symm.trans opened] at closed; cases closed
    | reject | refuse | accept => exact absurd rfl busy
    | reset _ at_ | offer _ at_ | offerAfterReset _ _ _ at_ => exact before (by simp [at_])
    | panic _ _ at_ =>
        apply before
        obtain at_ | at_ := at_ <;> simp [at_]

theorem Toll.supervisor (toll : Toll r c) (order : InOrder r d c)
    (h : Supervises r d c r' d' c') : Toll r' c' := by
  have attended := h.attended
  constructor
  · intro live open_ x mem finished
    have before : r.hub.cancelled = false ∧ r.hub.work.closed = false :=
      ⟨Bool.eq_false_iff.mpr fun yes => by simp [attended.cancelled yes] at live,
        Bool.eq_false_iff.mpr fun yes => by simp [attended.work_closed yes] at open_⟩
    obtain ⟨same, _⟩ | ⟨expired, _⟩ := attended.workers
    · rw [attended.stats]
      exact toll.workers before.1 before.2 x (same ▸ mem) finished
    · -- workers are ended by the deadline only, and that is of a cancelled run
      have order' := order.supervisor h
      have cancelled := order'.deadline (order'.expired expired)
      rw [live] at cancelled
      contradiction
  · intro opened
    obtain ⟨rfl, before⟩ := h.artifacts_open order opened
    exact toll.consumption before

theorem Toll.works (toll : Toll r c) (order : InOrder r d c) (tallied : Tallied r d c)
    (h : Works w r d c r' d' c') : Toll r' c' := by
  cases h with
  | discovery hub _ moved => exact toll.discovery moved
  | worker i x x' hub at_ moved => exact toll.worker order tallied at_ moved
  | consumption hub c' moved => exact toll.consumption_moves moved
  | supervisor supervises => exact toll.supervisor order supervises

/-- A batch run publishes at most what its one scan lists, and at most up to its limit. -/
def allowance (w : World) (s : Settings) : Nat :=
  min (scanSize (w.catalog 0).reply) (s.maxItems.getD (scanSize (w.catalog 0).reply))

/-- How far discovery of a batch run is with its one scan. -/
def Sized (w : World) (hub : Hub) (d : Discovery) : Prop :=
  match d.point with
  | .scanning => d.published = [] ∧ hub.scans = []
  | .listing _ reply => d.published = [] ∧ reply = (w.catalog 0).reply
  | .publishing rest => d.published.length + rest.length ≤ scanSize (w.catalog 0).reply
  | .resting _ | .ended _ => d.published.length ≤ scanSize (w.catalog 0).reply

theorem Sized.published_le {hub : Hub} (sized : Sized w hub d) :
    d.published.length ≤ scanSize (w.catalog 0).reply := by
  unfold Sized at sized
  split at sized
  · simp [sized.1]
  · simp [sized.1]
  · omega
  · exact sized
  · exact sized

theorem Sized.scans {hub hub' : Hub} (sized : Sized w hub d) (scans : hub'.scans = hub.scans) :
    Sized w hub' d := by
  simp only [Sized, scans]
  exact sized

theorem Sized.discovery {hub hub' : Hub} (sized : Sized w hub d) (batch : d.mode = .batch)
    (restless : ∀ due, d.point ≠ .resting due) (moved : d.Moves w hub hub' d') :
    Sized w hub' d' := by
  have within := sized.published_le
  unfold Sized at sized
  cases moved with
  | scan at_ =>
      rw [at_] at sized
      simp [Sized, sized.1, sized.2]
  | list due sources at_ =>
      rw [at_] at sized
      have fewer : (d.fresh sources).length ≤ (canonicalOrder sources).length :=
        List.length_filter_le ..
      simpa [Sized, sized.1, ← sized.2, scanSize] using fewer
  | publish s rest at_ =>
      rw [at_] at sized
      simp only [Sized, List.length_append, List.length_cons, List.length_nil] at sized ⊢
      omega
  | panic | firstScanFails | giveUp | refused | complete => exact within
  | rest interval _ polls => rw [batch] at polls; cases polls
  | stop due at_ | wake due at_ => exact absurd at_ (restless due)

/-- What a run must have in common with all before it to tell how many items it has. -/
structure Counted (w : World) (s : Settings) (r : Run) (d : Discovery) (c : Consumption) :
    Prop where
  coherent : Coherent s r d c
  tallied : Tallied r d c
  toll : Toll r c
  sized : Sized w r.hub d
  within : d.Within

theorem counted_launch (w : World) (s : Settings) (now : Nat) (cancelled : Bool) :
    Counted w s (fresh s now cancelled).launch (firstDiscovery s) (firstConsumption s) :=
  ⟨coherent_launch s now cancelled, tallied_launch s now cancelled, toll_launch s now cancelled,
    ⟨rfl, rfl⟩, fun _ _ => Nat.zero_le _⟩

theorem Counted.works (counted : Counted w s r d c) (batch : s.mode = .batch)
    (h : Works w r d c r' d' c') : Counted w s r' d' c' := by
  obtain ⟨coherent, tallied, toll, sized, within⟩ := counted
  have discovery : Sized w r'.hub d' ∧ d'.Within := by
    cases h with
    | discovery hub _ moved =>
        have restless (due : Nat) (resting : d.point = .resting due) : False :=
          coherent.fits.rests due resting batch
        exact ⟨sized.discovery (coherent.fits.mode.trans batch) restless moved,
          moved.within within⟩
    | worker _ _ _ hub _ moved => exact ⟨sized.scans moved.scans, within⟩
    | consumption hub _ moved => exact ⟨sized.scans moved.scans, within⟩
    | supervisor supervises =>
        have scans := supervises.attended.scans
        obtain rfl | rfl := supervises.tasks.1
        · exact ⟨sized.scans scans, within⟩
        · simp only [Discovery.abort]
          split
          · exact ⟨sized.scans scans, within⟩
          · exact ⟨sized.published_le, within⟩
  exact ⟨coherent.works h, tallied.works coherent.order h,
    toll.works coherent.order tallied h, discovery.1, discovery.2⟩

/-- A jammed batch run has two items more than fit into a queue. -/
theorem Jammed.surplus (jam : Jammed r d c) (counted : Counted w s r d c)
    (positive : 0 < s.queueCapacity) (workers : 0 < s.workers) :
    s.queueCapacity + 2 ≤ allowance w s := by
  obtain ⟨coherent, tallied, toll, sized, within⟩ := counted
  have fits := coherent.fits
  have discovered := tallied.discovered_eq
  have transformed := tallied.transformed
  rw [tallied.discovered] at discovered
  -- as many are listed, and as many are allowed
  have both : s.queueCapacity + 2 ≤ scanSize (w.catalog 0).reply ∧
      ∀ limit, d.maxItems = some limit → s.queueCapacity + 2 ≤ limit := by
    obtain ⟨_, held⟩ | ⟨_, ⟨x, mem, held⟩, _⟩ := jam.supervisor
    · obtain ⟨⟨next, rest, at_⟩, below, live, open_, full⟩ := held
      rw [fits.work_capacity] at full
      have some : 0 < r.workers.length := by rw [fits.crew]; exact workers
      have gone : 0 < r.heldByWorkers + r.lostWithWorkers + r.hub.stats.abandoned := by
        have mem := List.getElem_mem some
        obtain finished | held := jam.workers r.workers[0] mem
        · obtain lost | abandoned := toll.workers live open_ _ mem finished
          · have : 0 < r.lostWithWorkers := List.countP_pos_iff.mpr ⟨_, mem, lost⟩
            omega
          · omega
        · obtain ⟨⟨set, handing⟩, _⟩ := held
          have : 0 < r.heldByWorkers :=
            List.countP_pos_iff.mpr ⟨_, mem, by simp [Worker.held?, handing]⟩
          omega
      simp only [Sized, at_, List.length_cons] at sized
      refine ⟨by omega, ?_⟩
      intro limit most
      simp only [Discovery.limitReached, most, Option.any_some, decide_eq_false_iff_not] at below
      omega
    · have taken : 0 < c.taken.length := by
        obtain ⟨e, ended⟩ := jam.consumption_over coherent positive held
        exact List.length_pos_of_ne_nil (toll.consumption held.2.2.1 (by simp [ended]))
      obtain ⟨⟨set, handing⟩, _, _, full⟩ := held
      rw [fits.artifacts_capacity, Queue.size] at full
      have : 0 < r.heldByWorkers :=
        List.countP_pos_iff.mpr ⟨x, mem, by simp [Worker.held?, handing]⟩
      have published := sized.published_le
      refine ⟨by omega, ?_⟩
      intro limit most
      have := within limit most
      omega
  rw [allowance, ← fits.maxItems]
  refine Nat.le_min.mpr ⟨both.1, ?_⟩
  cases most : d.maxItems with
  | none => exact both.1
  | some limit => exact both.2 limit most

/-- A batch run with fewer items than that never jams, whatever breaks down. -/
theorem not_jammed_of_few {r₀ : Run} (started : begin s = .ok r₀) (batch : s.mode = .batch)
    (few : allowance w s ≤ s.queueCapacity + 1)
    (reached : Relation.ReflTransGen (Change w) r₀ r) : ¬IsJammed r := by
  obtain ⟨valid, positive, _⟩ := begin_eq started
  have workers := workers_pos_of_validate valid
  have invariant := launched_induction (w := w) (s := s) (P := fun r d c => Counted w s r d c)
    (fun now cancelled => counted_launch w s now cancelled)
    (fun counted works => counted.works batch works)
    (fun counted =>
      ⟨counted.coherent.cancel, { counted.tallied with },
        ⟨(fun live => by cases live), counted.toll.consumption⟩, counted.sized, counted.within⟩)
    (fun time _ counted =>
      ⟨counted.coherent.clock time, { counted.tallied with }, { counted.toll with },
        counted.sized, counted.within⟩)
    started reached
  rintro ⟨d, c, launched, jam⟩
  obtain ⟨now, cancelled, rfl⟩ | ⟨d', c', launched', counted⟩ := invariant
  · cases launched.discovery
  · obtain rfl : d = d' := Option.some.inj (launched.discovery.symm.trans launched'.discovery)
    obtain rfl : c = c' := Option.some.inj (launched.consumption.symm.trans launched'.consumption)
    have many := jam.surplus counted positive workers
    omega

/-- The supervisor cancels a run only with a fault. -/
theorem Supervises.blames (h : Supervises r d c r' d' c')
    (blamed : r.hub.cancelled → r.supervisor.firstFault.isSome) (cancelled : r'.hub.cancelled) :
    r'.supervisor.firstFault.isSome := by
  cases h with
  | discoveryOver e | discoveryJoined e =>
      cases e <;> simp_all [noted, drain, enter, discoveryFault]
  | workerJoined i x e => cases e <;> simp_all [noted, endingFault]
  | consumptionJoined _ e => simp_all [noted, stop, enter]
  | discoveryExpired | workersExpired =>
      rw [expire, abortWorkers_eq] at cancelled ⊢
      exact blamed cancelled
  | interrupted | workersGone | armed | consumptionExpired => exact blamed cancelled

theorem Works.blames (h : Works w r d c r' d' c')
    (blamed : r.hub.cancelled → r.supervisor.firstFault.isSome) (cancelled : r'.hub.cancelled) :
    r'.supervisor.firstFault.isSome := by
  cases h with
  | discovery _ _ moved => exact blamed (moved.kept.cancelled.symm.trans cancelled)
  | worker _ _ _ _ _ moved => exact blamed (moved.kept.cancelled.symm.trans cancelled)
  | consumption _ _ moved => exact blamed (moved.kept.cancelled.symm.trans cancelled)
  | supervisor supervises => exact supervises.blames blamed cancelled

theorem timed_and_blamed_of_moves (finite : w.Finite s) (timed : Timed s r d c)
    (live : r.hub.cancelled = false) (ahead : Relation.ReflTransGen (Move w) r r') :
    ∃ d' c', Timed s r' d' c' ∧ (r'.hub.cancelled → r'.supervisor.firstFault.isSome) := by
  induction ahead with
  | refl => exact ⟨d, c, timed, by simp [live]⟩
  | @tail r' r'' _ move ih =>
      obtain ⟨d', c', holds⟩ := ih
      exact move.keeps (P := fun r d c =>
          Timed s r d c ∧ (r.hub.cancelled → r.supervisor.firstFault.isSome))
        (fun ⟨timed, _⟩ => timed.coherent.launched)
        (fun ⟨timed, blamed⟩ h => ⟨timed.works finite h, h.blames blamed⟩)
        (fun time ⟨timed, blamed⟩ => ⟨timed.clock time, blamed⟩) holds

/-- So a breakdown in a batch run that is not cancelled from outside ends the run with the
fault, whatever the order of its steps. -/
theorem recovers_of_few {r₀ : Run} (started : begin s = .ok r₀) (batch : s.mode = .batch)
    (finite : w.Finite s) (few : allowance w s ≤ s.queueCapacity + 1)
    (reached : Relation.ReflTransGen (Change w) r₀ r) (broken : HasBroken r)
    (unstopped : r.lifecycle ≠ .stopped) (live : r.hub.cancelled = false) :
    Inevitable w StoppedWithFault r := by
  obtain ⟨d, c, recovering⟩ := recovering_of_reached started finite reached broken unstopped
  obtain ⟨_, positive, _⟩ := begin_eq started
  refine recovering.inevitable finite positive (.inl batch) fun r' ahead => ⟨?_, ?_⟩
  · exact not_jammed_of_few started batch few (reached.trans (changes_of_moves ahead))
  · rintro ⟨_, _, set, faultless⟩
    obtain ⟨d', c', timed, blamed⟩ := timed_and_blamed_of_moves finite recovering.timed live ahead
    have fault := blamed (timed.coherent.order.deadline set)
    simp [faultless] at fault

end Run

end DecodePipeline
