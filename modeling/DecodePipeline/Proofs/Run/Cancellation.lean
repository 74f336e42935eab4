import DecodePipeline.Proofs.Run.Course
import DecodePipeline.Proofs.Run.Order

/-!
What a cancelled run still does. No decoder call begins, nothing is published and no set is
handed on; a worker decides at most the item that it holds, and leaves. Consumption goes on
with the sets that it has been handed.
-/

namespace DecodePipeline

/-- How the fate of an item was decided. -/
inductive Verdict where
  | transformed
  | failed (failure : FailedItem)
  | abandoned
  deriving Repr, DecidableEq

/-- The verdicts by which the counters differ from an earlier point. -/
def Stats.verdicts (before after : Stats) : List Verdict :=
  List.replicate (after.transformed - before.transformed) .transformed ++
    (after.failures.drop before.failures.length).map .failed ++
    List.replicate (after.abandoned - before.abandoned) .abandoned

@[simp] theorem Stats.verdicts_self (stats : Stats) : stats.verdicts stats = [] := by
  simp [verdicts]

@[simp] theorem Stats.verdicts_addFailed (stats : Stats) (item : WorkItem) (fault : Fault) :
    stats.verdicts (stats.addFailed item fault) =
      [.failed ⟨item.id, item.attempt, fault.kind, fault.message⟩] := by
  simp [verdicts, addFailed]

@[simp] theorem Stats.verdicts_addAbandoned (stats : Stats) :
    stats.verdicts stats.addAbandoned = [.abandoned] := by
  simp [verdicts, addAbandoned]

/-- Between two points no decoder call begins, nothing is published and nothing is counted as
handed on. -/
structure Hub.Ceased (hub hub' : Hub) : Prop where
  decoderCalls : hub'.decoderCalls = hub.decoderCalls
  discovered : hub'.stats.discovered = hub.stats.discovered
  transformed : hub'.stats.transformed = hub.stats.transformed
  work : hub'.work.buffer = hub.work.buffer

theorem Hub.Ceased.trans {hub hub' hub'' : Hub} (h : hub.Ceased hub') (h' : hub'.Ceased hub'') :
    hub.Ceased hub'' where
  decoderCalls := h'.decoderCalls.trans h.decoderCalls
  discovered := h'.discovered.trans h.discovered
  transformed := h'.transformed.trans h.transformed
  work := h'.work.trans h.work

theorem Attempts.Moves.decoderCalls {w : World} {policy : RetryPolicy} {timeout : Span}
    {hub hub' : Hub} {a a' : Attempts} (h : a.Moves w policy timeout hub hub' a')
    (cancelled : hub.cancelled) : hub'.decoderCalls = hub.decoderCalls := by
  cases h with
  | call _ live => simp [live] at cancelled
  | giveUpWaiting | heed | panic | replyCancelled | retry | fail | succeed | resume
  | giveUpPausing => rfl

theorem Attempts.Moves.isCalling_of_cancelled {w : World} {policy : RetryPolicy} {timeout : Span}
    {hub hub' : Hub} {a a' : Attempts} (h : a.Moves w policy timeout hub hub' a')
    (cancelled : hub.cancelled) : a'.isCalling = false := by
  cases h with
  | call _ live => simp [live] at cancelled
  | giveUpWaiting | heed | panic | replyCancelled | retry | fail | succeed | resume
  | giveUpPausing => rfl

namespace Worker

variable {w : World} {s : Settings} {hub hub' : Hub} {x x' : Worker}

/-- What a worker may yet record after the cancellation: nothing, or what becomes of the item
that it holds. An item fails only by the call that is running, if that may not be repeated. -/
inductive Settles (policy : RetryPolicy) (x : Worker) : List Verdict → Prop
  | nothing : Settles policy x []
  | abandoned : x.held?.isSome → Settles policy x [.abandoned]
  | failed (item : WorkItem) (due : Option Nat) (heeds : Bool) (fault : Fault) :
      x.point = .busy (.calling item due heeds (.fails fault)) →
      (fault.isRetryable && policy.shouldRetry item.attempt) = false →
      Settles policy x [.failed ⟨item.id, item.attempt, fault.kind, fault.message⟩]

/-- The worker holds no item, and once the run is cancelled it takes none. -/
def Leaves (x : Worker) : Prop := x.point = .idle ∨ x.Over

theorem Leaves.held (leaves : x.Leaves) : x.held? = none := by
  obtain idle | ⟨e, ended⟩ := leaves
  · simp [held?, idle]
  · simp [held?, ended]

theorem isSome_held_of_busy {a a' : Attempts} {policy : RetryPolicy} {timeout : Span}
    (busy : x.point = .busy a) (moved : a.Moves w policy timeout hub hub' a') :
    x.held?.isSome := by
  obtain ⟨item, eq, _⟩ := moved.item
  simp [held?, busy, eq]

theorem Settles.eq_nil {policy : RetryPolicy} {verdicts : List Verdict}
    (settles : x.Settles policy verdicts) (leaves : x.Leaves) : verdicts = [] := by
  have nothing := leaves.held
  cases settles with
  | nothing => rfl
  | abandoned held => simp [nothing] at held
  | failed _ _ _ _ busy => simp [held?, busy, Attempts.item?] at nothing

/-- A worker whose item is not called for decides nothing but to abandon it. -/
theorem Settles.of_uncalled {policy : RetryPolicy} {verdicts : List Verdict}
    (settles : x'.Settles policy verdicts) (uncalled : x'.isCalling = false)
    (held : x.held?.isSome) : x.Settles policy verdicts := by
  cases settles with
  | nothing => exact .nothing
  | abandoned => exact .abandoned held
  | failed _ _ _ _ busy => simp [isCalling, busy, Attempts.isCalling] at uncalled

/-- A step after the cancellation decides the item that the worker holds, or nothing, and a
worker that has nothing more to decide leaves. -/
theorem Moves.settles {verdicts : List Verdict} (h : x.Moves w s hub hub' x')
    (cancelled : hub.cancelled) (settles : x'.Settles s.retry verdicts) :
    x.Settles s.retry (hub.stats.verdicts hub'.stats ++ verdicts) ∧
      (x.Leaves ∨ hub.stats.verdicts hub'.stats ≠ [] → x'.Leaves) := by
  have gone (y : Worker) (ended : y.Over) : y.Leaves := .inr ended
  cases h with
  | take _ _ _ live | hand _ _ live | refused _ _ live => simp [live] at cancelled
  | leave =>
      have leaves := gone { x with point := .ended (.returned x.handed) } ⟨_, rfl⟩
      obtain rfl := settles.eq_nil leaves
      simpa using ⟨.nothing, fun _ => leaves⟩
  | attempt a a' busy moved =>
      have held := isSome_held_of_busy busy moved
      rw [moved.alike.stats, Stats.verdicts_self, List.nil_append]
      refine ⟨settles.of_uncalled (moved.isCalling_of_cancelled cancelled) held, ?_⟩
      rintro (leaves | decided)
      · simp [leaves.held] at held
      · contradiction
  | transformed a set busy moved =>
      have held := isSome_held_of_busy busy moved
      rw [moved.alike.stats, Stats.verdicts_self, List.nil_append]
      refine ⟨settles.of_uncalled rfl held, ?_⟩
      rintro (leaves | decided)
      · simp [leaves.held] at held
      · contradiction
  | failed a item fault busy moved =>
      have leaves : ({ x with point := .idle } : Worker).Leaves := .inl rfl
      obtain rfl := settles.eq_nil leaves
      refine ⟨?_, fun _ => leaves⟩
      rw [Hub.count, moved.alike.stats, Stats.verdicts_addFailed, List.append_nil]
      cases moved with
      | fail item due heeds fault _ _ last => exact .failed item due heeds fault busy last
  | abandon a busy moved =>
      have leaves := gone { x with point := .ended (.returned x.handed) } ⟨_, rfl⟩
      obtain rfl := settles.eq_nil leaves
      refine ⟨?_, fun _ => leaves⟩
      rw [Hub.count, moved.alike.stats, Stats.verdicts_addAbandoned, List.append_nil]
      exact .abandoned (isSome_held_of_busy busy moved)
  | panic a busy moved =>
      have leaves := gone (x.cutOff .panicked) ⟨_, rfl⟩
      obtain rfl := settles.eq_nil leaves
      rw [moved.alike.stats, Stats.verdicts_self]
      exact ⟨.nothing, fun _ => leaves⟩
  | abandonSet set handing =>
      have leaves := gone { x with point := .ended (.returned x.handed) } ⟨_, rfl⟩
      obtain rfl := settles.eq_nil leaves
      refine ⟨?_, fun _ => leaves⟩
      rw [Hub.count, Stats.verdicts_addAbandoned, List.append_nil]
      exact .abandoned (by simp [held?, handing])

theorem Moves.ceased (h : x.Moves w s hub hub' x') (cancelled : hub.cancelled) :
    hub.Ceased hub' ∧ hub'.artifacts = hub.artifacts := by
  cases h with
  | take _ _ _ live | hand _ _ live | refused _ _ live => simp [live] at cancelled
  | leave | abandonSet => exact ⟨⟨rfl, rfl, rfl, rfl⟩, rfl⟩
  | attempt _ _ _ moved | transformed _ _ _ moved | failed _ _ _ _ moved | abandon _ _ moved
  | panic _ _ moved =>
      have alike := moved.alike
      refine ⟨⟨moved.decoderCalls cancelled, ?_, ?_, ?_⟩, alike.artifacts⟩
      · simp [Hub.count, alike.stats, Stats.addFailed, Stats.addAbandoned]
      · simp [Hub.count, alike.stats, Stats.addFailed, Stats.addAbandoned]
      · simp [Hub.count, alike.work]

end Worker

theorem Discovery.Moves.ceased {w : World} {hub hub' : Hub} {d d' : Discovery}
    (h : d.Moves w hub hub' d') (cancelled : hub.cancelled) :
    hub.Ceased hub' ∧ d'.published = d.published := by
  have left : hub.Ceased (d.leftBehind hub) := by
    unfold leftBehind
    split <;> exact ⟨rfl, rfl, rfl, rfl⟩
  cases h with
  | publish _ _ _ _ live | wake _ _ live => simp [live] at cancelled
  | scan | panic | list | complete | rest => exact ⟨⟨rfl, rfl, rfl, rfl⟩, rfl⟩
  | firstScanFails | giveUp | refused | stop => exact ⟨left, rfl⟩

theorem Consumption.Moves.ceased {w : World} {hub hub' : Hub} {c c' : Consumption}
    (h : c.Moves w hub hub' c') :
    hub.Ceased hub' ∧ ∃ out, c'.taken = c.taken ++ out ∧
      hub.artifacts.buffer = out ++ hub'.artifacts.buffer := by
  cases h with
  | take set rest _ buffer => exact ⟨⟨rfl, rfl, rfl, rfl⟩, [set], rfl, buffer⟩
  | leave | reject | reset | offer | offerAfterReset | panic | refuse | accept =>
      exact ⟨⟨rfl, rfl, rfl, rfl⟩, [], (List.append_nil _).symm, rfl⟩

namespace Run

variable {w : World} {s : Settings} {r r' r'' : Run} {d d' : Discovery} {c c' : Consumption}

def publishedIds (r : Run) : List String := (r.discovery.map Discovery.published).getD []

def setsTaken (r : Run) : List ArtifactSet := (r.consumption.map Consumption.taken).getD []

/-- Between two points no decoder call begins and nothing is published or handed on; the sets
that leave the artifact queue are taken by consumption. -/
structure Ceased (r r' : Run) : Prop where
  hub : r.hub.Ceased r'.hub
  published : r'.publishedIds = r.publishedIds
  sets : ∃ out, r'.setsTaken = r.setsTaken ++ out ∧
    r.hub.artifacts.buffer = out ++ r'.hub.artifacts.buffer

theorem ceased_of_hub (hub : r.hub.Ceased r'.hub)
    (artifacts : r'.hub.artifacts.buffer = r.hub.artifacts.buffer)
    (published : r'.publishedIds = r.publishedIds) (sets : r'.setsTaken = r.setsTaken) :
    r.Ceased r' :=
  ⟨hub, published, [], by simp [sets], by simp [artifacts]⟩

theorem Ceased.trans (h : r.Ceased r') (h' : r'.Ceased r'') : r.Ceased r'' := by
  obtain ⟨out, taken, buffer⟩ := h.sets
  obtain ⟨out', taken', buffer'⟩ := h'.sets
  refine ⟨h.hub.trans h'.hub, h'.published.trans h.published, out ++ out', ?_, ?_⟩
  · rw [taken', taken, List.append_assoc]
  · rw [buffer, buffer', List.append_assoc]

theorem Supervises.calls (h : Supervises r d c r' d' c') :
    r'.hub.decoderCalls = r.hub.decoderCalls ∧ r'.hub.rendererCalls = r.hub.rendererCalls := by
  cases h with
  | discoveryExpired | workersExpired => simp [expire, abortWorkers_eq, abortDiscovery, enter]
  | discoveryOver | interrupted | discoveryJoined | workerJoined | workersGone | armed
  | consumptionJoined | consumptionExpired => exact ⟨rfl, rfl⟩

theorem Supervises.ceased (h : Supervises r d c r' d' c') (launched : Launched r d c)
    (launched' : Launched r' d' c') : r.Ceased r' := by
  have attended := h.attended
  refine ceased_of_hub ⟨h.calls.1, ?_, ?_, attended.work.1⟩ attended.artifacts.1 ?_ ?_
  · rw [attended.stats]
  · rw [attended.stats]
  · simp [publishedIds, launched.discovery, launched'.discovery, h.published]
  · simp [setsTaken, launched.consumption, launched'.consumption, h.taken]

theorem Works.ceased (h : Works w r d c r' d' c') (launched : Launched r d c)
    (cancelled : r.hub.cancelled) : r.Ceased r' := by
  have launched' := h.launched launched
  cases h with
  | discovery hub _ moved =>
      obtain ⟨ceased, published⟩ := moved.ceased cancelled
      refine ceased_of_hub ceased (congrArg Queue.buffer moved.artifacts.1) ?_ rfl
      simp [publishedIds, launched.discovery, published]
  | worker i x x' hub at_ moved =>
      obtain ⟨ceased, artifacts⟩ := moved.ceased cancelled
      exact ceased_of_hub ceased (congrArg Queue.buffer artifacts) rfl rfl
  | consumption hub _ moved =>
      obtain ⟨ceased, out, taken, buffer⟩ := moved.ceased
      refine ⟨ceased, rfl, out, ?_, buffer⟩
      simp [setsTaken, launched.consumption, taken]
  | supervisor supervises => exact supervises.ceased launched launched'

/-- A cancelled run, before its tasks come into being or later. -/
def Halted (s : Settings) (r : Run) : Prop :=
  (∃ now, r = fresh s now true) ∨ ∃ d c, Coherent s r d c ∧ r.hub.cancelled

theorem Halted.change (halted : Halted s r) (change : Change w r r') :
    Halted s r' ∧ r.Ceased r' := by
  obtain ⟨now, rfl⟩ | ⟨d, c, coherent, cancelled⟩ := halted
  · cases change with
    | task a stepped =>
        rw [stepTask_fresh stepped]
        exact ⟨.inr ⟨_, _, coherent_launch s now true, rfl⟩,
          ceased_of_hub ⟨rfl, rfl, rfl, rfl⟩ rfl rfl rfl⟩
    | cancel => exact ⟨.inl ⟨now, rfl⟩, ceased_of_hub ⟨rfl, rfl, rfl, rfl⟩ rfl rfl rfl⟩
    | clock time => exact ⟨.inl ⟨time, rfl⟩, ceased_of_hub ⟨rfl, rfl, rfl, rfl⟩ rfl rfl rfl⟩
  · cases change with
    | task a stepped =>
        obtain ⟨d', c', h⟩ := coherent.launched.works stepped
        exact ⟨.inr ⟨d', c', coherent.works h, h.cancelled cancelled⟩,
          h.ceased coherent.launched cancelled⟩
    | cancel =>
        exact ⟨.inr ⟨d, c, coherent.cancel, rfl⟩, ceased_of_hub ⟨rfl, rfl, rfl, rfl⟩ rfl rfl rfl⟩
    | clock time =>
        exact ⟨.inr ⟨d, c, coherent.clock time, cancelled⟩,
          ceased_of_hub ⟨rfl, rfl, rfl, rfl⟩ rfl rfl rfl⟩

theorem Halted.ceased (halted : Halted s r) (reached : Relation.ReflTransGen (Change w) r r') :
    r.Ceased r' := by
  induction reached using Relation.ReflTransGen.head_induction_on with
  | refl => exact ceased_of_hub ⟨rfl, rfl, rfl, rfl⟩ rfl rfl rfl
  | head change _ ih =>
      obtain ⟨halted', ceased⟩ := halted.change change
      exact ceased.trans (ih halted')

/-- What the worker with an index records by an action. -/
def recordedBy (i : Nat) (r : Run) (a : Action) (r' : Run) : List Verdict :=
  if a = .worker i then r.hub.stats.verdicts r'.hub.stats else []

/-- The worker with an index; one that does not exist yet will be idle. -/
def workerAt (r : Run) (i : Nat) : Worker := r.workers[i]?.getD {}

theorem moves_of_worker {i : Nat} (h : r.happen w (.worker i) = some r') :
    (r.workerAt i).Moves w r.settings r.hub r'.hub (r'.workerAt i) := by
  simp only [happen, stepTask, stepWorker, Option.pure_def, Option.bind_eq_bind,
    Option.bind_eq_some_iff, Option.some.injEq] at h
  obtain ⟨x, at_, ⟨hub, x'⟩, stepped, rfl⟩ := h
  obtain ⟨lt, _⟩ := List.getElem?_eq_some_iff.mp at_
  have before : r.workerAt i = x := by simp [workerAt, at_]
  have after : { r with hub, workers := r.workers.set i x' }.workerAt i = x' := by
    simp [workerAt, lt]
  rw [before, after]
  exact Worker.moves_of_step stepped

theorem workerAt_launch (s : Settings) (now : Nat) (cancelled : Bool) (i : Nat) :
    (fresh s now cancelled).launch.workerAt i = {} := by
  simp only [workerAt, launch, fresh, List.getElem?_replicate]
  split <;> rfl

theorem workerAt_congr (same : r'.workers = r.workers) (i : Nat) :
    r'.workerAt i = r.workerAt i := by
  rw [workerAt, same, workerAt]

/-- Others leave a worker as it is, or end it. -/
theorem Acts.workerAt {i : Nat} {a : Action} (h : Acts w r d c a r' d' c') (other : a ≠ .worker i) :
    r'.workerAt i = r.workerAt i ∨ (r'.workerAt i).Over := by
  cases h with
  | discovery | consumption => exact .inl rfl
  | worker j x x' hub at_ moved =>
      have ne : j ≠ i := fun eq => other (eq ▸ rfl)
      exact .inl (by simp [Run.workerAt, List.getElem?_set_ne ne])
  | supervisor signal _ supervises =>
      obtain ⟨same, _⟩ | ⟨_, ended, _⟩ := supervises.attended.workers
      · exact .inl (workerAt_congr same i)
      · cases at_ : r.workers[i]? with
        | none => exact .inl (by simp [Run.workerAt, ended, at_])
        | some x => exact .inr (by simpa [Run.workerAt, ended, at_] using x.over_aborted)

theorem Halted.workerAt_of_other {i : Nat} {a : Action} (halted : Halted s r)
    (h : r.happen w a = some r') (other : a ≠ .worker i) :
    r'.workerAt i = r.workerAt i ∨ (r'.workerAt i).Over := by
  obtain ⟨_, rfl⟩ | ⟨time, _, _, rfl⟩ | stepped := cases_of_happen h
  · exact .inl rfl
  · exact .inl rfl
  · obtain ⟨now, rfl⟩ | ⟨d, c, coherent, _⟩ := halted
    · rw [stepTask_fresh stepped, workerAt_launch]
      exact .inl rfl
    · obtain ⟨d', c', acts⟩ := coherent.launched.acts stepped
      exact acts.workerAt other

theorem Halted.settles {i : Nat} {actions : List Action} (halted : Halted s r)
    (course : r.replay w actions = some r') :
    (r.workerAt i).Settles s.retry (chronicle w (recordedBy i) r actions) ∧
      ((r.workerAt i).Leaves ∨ chronicle w (recordedBy i) r actions ≠ [] →
        (r'.workerAt i).Leaves) := by
  induction actions generalizing r with
  | nil =>
      obtain rfl : r = r' := Option.some.inj course
      exact ⟨.nothing, fun leaves => leaves.resolve_right (· rfl)⟩
  | cons a actions ih =>
      obtain ⟨r₁, happens, rest⟩ := replay_cons.mp course
      obtain ⟨halted', _⟩ := halted.change (change_of_happen happens)
      obtain ⟨settles, leaves⟩ := ih halted' rest
      rw [chronicle_cons happens]
      by_cases own : a = .worker i
      · subst own
        obtain ⟨now, rfl⟩ | ⟨d, c, coherent, cancelled⟩ := halted
        · simp [happen, stepTask, stepWorker, fresh] at happens
        · have moved := moves_of_worker happens
          rw [← coherent.fits.settings] at settles ⊢
          obtain ⟨settles', leaves'⟩ := moved.settles cancelled settles
          rw [recordedBy, if_pos rfl]
          refine ⟨settles', ?_⟩
          rintro (before | decided)
          · exact leaves (.inl (leaves' (.inl before)))
          · by_cases now : r.hub.stats.verdicts r₁.hub.stats = []
            · rw [now, List.nil_append] at decided
              exact leaves (.inr decided)
            · exact leaves (.inl (leaves' (.inr now)))
      · rw [recordedBy, if_neg own, List.nil_append]
        obtain same | ended := halted.workerAt_of_other happens own
        · rw [← same]
          exact ⟨settles, leaves⟩
        · rw [settles.eq_nil (.inr ended)] at leaves ⊢
          exact ⟨.nothing, fun _ => leaves (.inl (.inr ended))⟩

theorem halted_of_reached {r₀ : Run} (started : begin s = .ok r₀)
    (reached : Relation.ReflTransGen (Change w) r₀ r) (cancelled : r.hub.cancelled) :
    Halted s r := by
  obtain ⟨now, token, rfl⟩ | ⟨d, c, coherent⟩ := coherent_of_reached started reached
  · obtain rfl : token = true := cancelled
    exact .inl ⟨now, rfl⟩
  · exact .inr ⟨d, c, coherent, cancelled⟩

/-- Nothing new starts once a run is cancelled: from then on no decoder call begins, nothing
is published, no set is handed on, and each worker decides at most the item that it holds, and
leaves. -/
theorem nothing_starts_when_cancelled {r₀ : Run} {actions : List Action}
    (started : begin s = .ok r₀) (reached : Relation.ReflTransGen (Change w) r₀ r)
    (cancelled : r.hub.cancelled) (course : r.replay w actions = some r') :
    r.Ceased r' ∧ ∀ i,
      (r.workerAt i).Settles s.retry (chronicle w (recordedBy i) r actions) ∧
        (chronicle w (recordedBy i) r actions ≠ [] → (r'.workerAt i).Leaves) := by
  have halted := halted_of_reached started reached cancelled
  refine ⟨halted.ceased (reaches_of_replay course), fun i => ?_⟩
  obtain ⟨settles, leaves⟩ := halted.settles (i := i) course
  exact ⟨settles, fun decided => leaves (.inr decided)⟩

/-- Collaborators that answer; the decoder heeds nothing, and finds fault with the first item. -/
def heedlessWorld : World where
  catalog _ := ⟨some 0, .gives threeSources⟩
  decoder id _ :=
    { delay := some 10
      reply := if id = "a" then .fails (.config "no such format") else .gives ⟨[id], [id]⟩
      heeds := false }
  reset := ⟨some 0, .gives ()⟩
  accept _ _ := ⟨some 0, .gives ()⟩

/-- One call fails and one succeeds when the run is cancelled. The failure is recorded, and the
set that came out of the other call is not handed on. -/
theorem nothing_starts_when_cancelled_two_calls :
    ∃ r r', Relation.ReflTransGen (Change heedlessWorld) (fresh { workers := 2 } 0 false) r ∧
      r.hub.cancelled ∧
      r.replay heedlessWorld [.worker 0, .worker 1, .worker 1, .worker 0] = some r' ∧
      chronicle heedlessWorld (recordedBy 0) r [.worker 0, .worker 1, .worker 1, .worker 0] =
        [.failed ⟨"a", 1, "config", "Configuration error: no such format"⟩] ∧
      chronicle heedlessWorld (recordedBy 1) r [.worker 0, .worker 1, .worker 1, .worker 0] =
        [.abandoned] ∧
      r.Ceased r' ∧ (r'.workerAt 0).Leaves ∧ (r'.workerAt 1).Leaves := by
  let s : Settings := { workers := 2 }
  let calls : List Action :=
    [.discovery, .discovery, .discovery, .discovery, .worker 0, .worker 0, .worker 1, .worker 1,
      .supervisor .discoveryEnded, .tick 10, .cancel]
  let answers : List Action := [.worker 0, .worker 1, .worker 1, .worker 0]
  have arrives : ((listed s).follow heedlessWorld calls).any (fun r =>
      r.hub.cancelled && (r.replay heedlessWorld answers).isSome &&
        chronicle heedlessWorld (recordedBy 0) r answers =
          [.failed ⟨"a", 1, "config", "Configuration error: no such format"⟩] &&
        chronicle heedlessWorld (recordedBy 1) r answers = [.abandoned]) := by decide
  obtain ⟨r, arrives, holds⟩ := (Option.any_eq_true _ _).mp arrives
  simp only [Bool.and_eq_true, decide_eq_true_eq] at holds
  obtain ⟨⟨⟨cancelled, ends⟩, failed⟩, abandoned⟩ := holds
  obtain ⟨r', course⟩ := Option.isSome_iff_exists.mp ends
  have reached := reaches_of_reachable
    (reachable_of_follow ((follow_scanned s rfl calls).trans arrives))
  obtain ⟨ceased, settled⟩ := nothing_starts_when_cancelled (s := s) rfl reached cancelled course
  exact ⟨r, r', reached, cancelled, course, failed, abandoned, ceased,
    (settled 0).2 (failed ▸ List.cons_ne_nil _ _),
    (settled 1).2 (abandoned ▸ List.cons_ne_nil _ _)⟩

end Run

end DecodePipeline
