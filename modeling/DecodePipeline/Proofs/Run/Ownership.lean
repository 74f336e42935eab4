import DecodePipeline.Proofs.Run.Cancellation
import DecodePipeline.Proofs.Run.Conservation
import DecodePipeline.Proofs.Run.Pool

/-!
Who decodes which item. A queued item has not been tried; the worker that takes it makes all the
calls for it, one after another and numbered from one, and no other worker has an item of that
id. The numbers stay within the retry policy.
-/

namespace DecodePipeline

/-- A decoder call with the index of the worker that makes it. -/
structure OwnedCall where
  worker : Nat
  call : DecoderCall
  deriving Repr, DecidableEq

namespace Hub

theorem callsFor_append {hub hub' : Hub} {call : DecoderCall}
    (calls : hub'.decoderCalls = hub.decoderCalls ++ [call]) (id : String) :
    hub'.callsFor id = hub.callsFor id + if call.id = id then 1 else 0 := by
  by_cases own : call.id = id <;> simp [callsFor, calls, List.filter_append, own]

theorem callsFor_beginCall (hub : Hub) (item : WorkItem) :
    (hub.beginCall item).callsFor item.id = hub.callsFor item.id + 1 := by
  rw [callsFor_append rfl item.id, if_pos rfl]

end Hub

namespace Attempts

variable {w : World} {policy : RetryPolicy} {timeout : Span} {hub hub' : Hub} {a a' : Attempts}

/-- A step begins a call, or none. -/
theorem Moves.begins (h : a.Moves w policy timeout hub hub' a') :
    hub'.decoderCalls = hub.decoderCalls ∨
      ∃ item due heeds reply, a = .waiting item ∧ a' = .calling item due heeds reply ∧
        hub'.decoderCalls = hub.decoderCalls ++ [⟨hub.now, item.id, item.attempt⟩] := by
  cases h with
  | call item => exact .inr ⟨item, _, _, _, rfl, rfl, rfl⟩
  | giveUpWaiting | heed | panic | replyCancelled | retry | fail | succeed | resume
  | giveUpPausing => exact .inl rfl

/-- The number of an attempt is the number of calls that have been made for the item, the one
that is about to be made included. -/
def Counts (policy : RetryPolicy) (calls : String → Nat) : Attempts → Prop
  | .waiting item => item.attempt = calls item.id + 1 ∧ item.attempt ≤ policy.maxAttempts
  | .calling item _ _ _ => item.attempt = calls item.id ∧ item.attempt ≤ policy.maxAttempts
  | .pausing item _ => item.attempt = calls item.id ∧ item.attempt < policy.maxAttempts
  | .ended _ => True

theorem Counts.congr {calls calls' : String → Nat} (counts : a.Counts policy calls)
    (same : ∀ item, a.item? = some item → calls' item.id = calls item.id) :
    a.Counts policy calls' := by
  cases a with
  | waiting item | calling item | pausing item =>
      simp only [Counts] at counts ⊢
      rwa [same item rfl]
  | ended => trivial

theorem Moves.counts (h : a.Moves w policy timeout hub hub' a')
    (counts : a.Counts policy hub.callsFor) : a'.Counts policy hub'.callsFor := by
  cases h with
  | call item =>
      obtain ⟨next, within⟩ := counts
      refine ⟨?_, within⟩
      rw [Hub.callsFor_beginCall, next]
  | retry item due heeds fault _ _ again =>
      simp only [Bool.and_eq_true, RetryPolicy.shouldRetry, decide_eq_true_eq] at again
      exact ⟨counts.1, again.2⟩
  | resume item due =>
      obtain ⟨last, below⟩ := counts
      exact ⟨congrArg (· + 1) last, below⟩
  | giveUpWaiting | heed | panic | replyCancelled | fail | succeed | giveUpPausing => trivial

end Attempts

namespace Worker

variable {w : World} {s : Settings} {hub hub' : Hub} {x x' : Worker}

/-- The item whose call is in flight. -/
def called? (x : Worker) : Option WorkItem :=
  match x.point with
  | .busy (.calling item _ _ _) => some item
  | _ => none

theorem held_of_called {item : WorkItem} (called : x.called? = some item) :
    x.held? = some item.id := by
  unfold called? at called
  split at called
  · next point => cases called; simp [held?, point, Attempts.item?]
  · cases called

/-- What a worker's step can do to the record of calls. -/
theorem Moves.begins (h : x.Moves w s hub hub' x') :
    hub'.decoderCalls = hub.decoderCalls ∨
      ∃ item due heeds reply, x.point = .busy (.waiting item) ∧
        x' = { x with point := .busy (.calling item due heeds reply) } ∧
        hub'.decoderCalls = hub.decoderCalls ++ [⟨hub.now, item.id, item.attempt⟩] := by
  cases h with
  | leave | take | abandonSet | hand | refused => exact .inl rfl
  | attempt a a' busy moved =>
      obtain same | ⟨item, due, heeds, reply, rfl, rfl, calls⟩ := moved.begins
      · exact .inl same
      · exact .inr ⟨item, due, heeds, reply, busy, rfl, calls⟩
  | transformed _ _ _ moved | failed _ _ _ _ moved | abandon _ _ moved | panic _ _ moved =>
      obtain same | ⟨_, _, _, _, _, other, _⟩ := moved.begins
      · exact .inl same
      · cases other

/-- A worker that holds an item has held it before or takes it from the queue. -/
theorem Moves.holds {p : String} (h : x.Moves w s hub hub' x') (held : x'.held? = some p) :
    x.held? = some p ∨ p ∈ hub.work.buffer.map (·.id) := by
  cases h with
  | leave | failed | abandon | abandonSet | hand | refused => cases held
  | panic => cases held
  | take item rest _ _ buffer =>
      right
      cases held
      rw [buffer]
      exact List.mem_cons_self
  | attempt a a' busy moved going =>
      left
      obtain ⟨item, of, same⟩ := moved.item
      cases a' with
      | waiting | calling | pausing =>
          dsimp only at same
          rw [held_busy busy of, ← same]
          exact held
      | ended => cases going
  | transformed a set busy moved =>
      left
      obtain ⟨item, of, same⟩ := moved.item
      dsimp only at same
      rw [held_busy busy of, ← same]
      exact held

theorem Moves.work_subset (h : x.Moves w s hub hub' x') : hub'.work.buffer ⊆ hub.work.buffer := by
  cases h with
  | leave | refused | abandonSet | hand => exact fun _ => id
  | take item rest _ _ buffer =>
      rw [buffer]
      exact List.subset_cons_self item rest
  | attempt _ _ _ moved | transformed _ _ _ moved | failed _ _ _ _ moved | abandon _ _ moved
  | panic _ _ moved =>
      intro item mem
      have same := moved.alike.work
      simpa [Hub.count, same] using mem

/-- An item that is taken from the queue is tried for the first time. -/
theorem Moves.counts (h : x.Moves w s hub hub' x') (some_ : 0 < s.retry.maxAttempts)
    (queued : ∀ item ∈ hub.work.buffer, item.attempt = 0 ∧ hub.callsFor item.id = 0)
    (counts : ∀ a, x.point = .busy a → a.Counts s.retry hub.callsFor) :
    ∀ a, x'.point = .busy a → a.Counts s.retry hub'.callsFor := by
  intro a' busy'
  cases h with
  | leave | failed | abandon | abandonSet | hand | refused | panic | transformed => cases busy'
  | take item rest _ _ buffer =>
      cases busy'
      obtain ⟨untried, uncalled⟩ := queued item (buffer ▸ List.mem_cons_self)
      refine ⟨?_, ?_⟩
      · show item.attempt + 1 = hub.callsFor item.id + 1
        rw [untried, uncalled]
      · show item.attempt + 1 ≤ _
        omega
  | attempt a _ busy moved =>
      cases busy'
      exact moved.counts (counts a busy)

end Worker

theorem Consumption.Moves.decoderCalls {w : World} {hub hub' : Hub} {c c' : Consumption}
    (h : c.Moves w hub hub' c') : hub'.decoderCalls = hub.decoderCalls := by
  cases h <;> rfl

namespace Run

variable {w : World} {s : Settings} {r r' : Run} {d d' : Discovery} {c c' : Consumption}

/-- The items whose calls are in flight. -/
def inFlight (r : Run) : List WorkItem := r.workers.filterMap Worker.called?

/-- The call that an action begins. -/
def begun (r : Run) (a : Action) (r' : Run) : List OwnedCall :=
  match a with
  | .worker i => (r'.hub.decoderCalls.drop r.hub.decoderCalls.length).map (⟨i, ·⟩)
  | _ => []

/-- The calls of a run, as they begin. -/
def callLog (w : World) (r : Run) (actions : List Action) : List OwnedCall :=
  chronicle w begun r actions

section

variable {i j : Nat} {x y : Worker} {p : String}

theorem Tallied.apart (tallied : Tallied r d c) :
    (r.hub.work.buffer.map (·.id) ++ r.carriedIds).Nodup ∧ r.carriedIds ⊆ d.published := by
  obtain ⟨dropped, _, ledger⟩ := tallied.ledger
  have queued : (r.hub.work.buffer.map (·.id)).Sublist r.hub.entered :=
    (List.sublist_append_left _ _).trans (List.sublist_append_left _ _)
  have listed := ((queued.append_right r.carriedIds).trans
    (List.sublist_append_left _ (c.taken.map (·.itemId)))).trans
      (List.sublist_append_left _ dropped)
  have distinct := ledger.nodup_iff.mp (List.nodup_append.mp tallied.distinct).1
  refine ⟨distinct.sublist listed, fun p mem => ledger.mem_iff.mpr ?_⟩
  exact listed.subset (List.mem_append_right _ mem)

theorem mem_carriedIds (at_ : r.workers[i]? = some x) (held : x.held? = some p) :
    p ∈ r.carriedIds := by
  refine List.mem_flatMap.mpr ⟨x, List.mem_of_getElem? at_, ?_⟩
  simp [Worker.carries, held]

/-- No worker has an item that is queued. -/
theorem Tallied.unqueued (tallied : Tallied r d c) (at_ : r.workers[i]? = some x)
    (held : x.held? = some p) : p ∉ r.hub.work.buffer.map (·.id) := by
  intro queued
  exact (List.nodup_append.mp tallied.apart.1).2.2 p queued p (mem_carriedIds at_ held) rfl

/-- No two workers have items of one id. -/
theorem Tallied.alone (tallied : Tallied r d c) (at_i : r.workers[i]? = some x)
    (at_j : r.workers[j]? = some y) (held_x : x.held? = some p) (held_y : y.held? = some p) :
    i = j := by
  have carried := (List.nodup_append.mp tallied.apart.1).2.1
  have disjoint := List.pairwise_iff_getElem.mp (List.nodup_flatMap.mp carried).2
  obtain ⟨lt_i, rfl⟩ := List.getElem?_eq_some_iff.mp at_i
  obtain ⟨lt_j, rfl⟩ := List.getElem?_eq_some_iff.mp at_j
  have mem_x : p ∈ r.workers[i].carries := by simp [Worker.carries, held_x]
  have mem_y : p ∈ r.workers[j].carries := by simp [Worker.carries, held_y]
  obtain before | same | after := Nat.lt_trichotomy i j
  · exact absurd mem_y (disjoint i j lt_i lt_j before mem_x)
  · exact same
  · exact absurd mem_x (disjoint j i lt_j lt_i after mem_y)

end

theorem Attended.worker_or_over (attended : r.Attended r') {i : Nat} {x : Worker}
    (at_ : r'.workers[i]? = some x) : r.workers[i]? = some x ∨ x.Over := by
  obtain ⟨same, _⟩ | ⟨_, ended, _⟩ := attended.workers
  · exact .inl (same ▸ at_)
  · rw [ended] at at_
    obtain ⟨y, _, rfl⟩ := List.mem_map.mp (List.mem_of_getElem? at_)
    exact .inr y.over_aborted

theorem getElem?_set_cases {α : Type} {l : List α} {i j : Nat} {y z : α}
    (h : (l.set i y)[j]? = some z) : j = i ∧ z = y ∨ j ≠ i ∧ l[j]? = some z := by
  by_cases own : j = i
  · subst own
    obtain ⟨lt, eq⟩ := List.getElem?_eq_some_iff.mp h
    rw [List.getElem_set_self] at eq
    exact .inl ⟨rfl, eq.symm⟩
  · rw [List.getElem?_set_ne (Ne.symm own)] at h
    exact .inr ⟨own, h⟩

/-- An action begins no call, or one for an item that waits with a worker. -/
theorem Acts.begins {a : Action} (h : Acts w r d c a r' d' c') :
    r.begun a r' = [] ∨
      ∃ (i : Nat) (x : Worker) (item : WorkItem),
        r.workers[i]? = some x ∧ x.point = .busy (.waiting item) ∧
          r.begun a r' = [⟨i, r.hub.now, item.id, item.attempt⟩] := by
  cases h with
  | discovery | consumption | supervisor => exact .inl rfl
  | worker i x x' hub at_ moved =>
      obtain calls | ⟨item, _, _, _, waits, _, calls⟩ := moved.begins
      · exact .inl (by simp [begun, calls])
      · exact .inr ⟨i, x, item, at_, waits, by simp [begun, calls]⟩

/-- No call begins for an item that has one in flight. -/
theorem Tallied.unflown {a : Action} (tallied : Tallied r d c) (h : Acts w r d c a r' d' c') :
    ∀ e ∈ r.begun a r', e.call.id ∉ r.inFlight.map (·.id) := by
  intro e mem flies
  obtain none | ⟨i, x, item, at_, waits, one⟩ := h.begins
  · rw [none] at mem
    cases mem
  · rw [one] at mem
    obtain rfl := List.mem_singleton.mp mem
    obtain ⟨other, flies, same⟩ := List.mem_map.mp flies
    obtain ⟨y, busy, calling⟩ := List.mem_filterMap.mp flies
    obtain ⟨j, at_j⟩ := List.mem_iff_getElem?.mp busy
    have held := Worker.held_of_called calling
    rw [same] at held
    obtain rfl := tallied.alone at_j at_ held (Worker.held_busy waits rfl)
    obtain rfl := Option.some.inj (at_j.symm.trans at_)
    simp [Worker.called?, waits] at calling

/-- The calls that have been made, by item: they are numbered from one, and the worker that has the
item goes on from there. -/
structure Numbered (s : Settings) (r : Run) (d : Discovery) : Prop where
  queued : ∀ item ∈ r.hub.work.buffer, item.attempt = 0 ∧ r.hub.callsFor item.id = 0
  published : ∀ id, r.hub.callsFor id ≠ 0 → id ∈ d.published
  numbers : ∀ id, (r.hub.decoderCalls.filter (·.id = id)).map (·.attempt) =
    List.range' 1 (r.hub.callsFor id)
  within : ∀ id, r.hub.callsFor id ≤ s.retry.maxAttempts
  counts : ∀ (i : Nat) x, r.workers[i]? = some x → ∀ a, x.point = .busy a →
    a.Counts s.retry r.hub.callsFor

/-- The calls that have been made, by worker: those for an item are all its owner's. -/
structure Owned (log : List OwnedCall) (r : Run) : Prop where
  calls : log.map OwnedCall.call = r.hub.decoderCalls
  owned : ∀ (i : Nat) x, r.workers[i]? = some x → ∀ p, x.held? = some p →
    ∀ e ∈ log, e.call.id = p → e.worker = i
  owner : ∀ e ∈ log, ∀ e' ∈ log, e.call.id = e'.call.id → e.worker = e'.worker

section

variable {log new : List OwnedCall} {i : Nat} {x x' : Worker} {hub : Hub} {item : WorkItem}

theorem numbered_launch (s : Settings) (now : Nat) (cancelled : Bool) :
    Numbered s (fresh s now cancelled).launch (firstDiscovery s) where
  queued _ mem := by cases mem
  published _ called := absurd rfl called
  numbers _ := rfl
  within _ := Nat.zero_le _
  counts _ _ at_ _ busy := by
    obtain rfl := List.eq_of_mem_replicate (List.mem_of_getElem? at_)
    cases busy

/-- Where no call begins, nobody takes an item, and what is queued stays as it is. -/
theorem Numbered.congr (numbered : Numbered s r d)
    (calls : r'.hub.decoderCalls = r.hub.decoderCalls)
    (work : r'.hub.work.buffer = r.hub.work.buffer) (published : d'.published = d.published)
    (workers : ∀ (i : Nat) x, r'.workers[i]? = some x → r.workers[i]? = some x ∨ x.Over) :
    Numbered s r' d' := by
  have same : r'.hub.callsFor = r.hub.callsFor := by
    funext id
    rw [Hub.callsFor, calls, Hub.callsFor]
  constructor
  case queued => rw [work, same]; exact numbered.queued
  case published => rw [same, published]; exact numbered.published
  case numbers => rw [same, calls]; exact numbered.numbers
  case within => rw [same]; exact numbered.within
  case counts =>
    intro i x at_ a busy
    obtain going | ⟨e, ended⟩ := workers i x at_
    · rw [same]
      exact numbered.counts i x going a busy
    · rw [ended] at busy
      cases busy

/-- A published item has not been called for. -/
theorem Numbered.discovery (numbered : Numbered s r d) (tallied : Tallied r d c)
    (moved : d.Moves w r.hub hub d') : Numbered s { r with hub, discovery := some d' } d' := by
  have calls := moved.calls.1
  cases moved with
  | publish source rest at_ =>
      have unpublished : source.id ∉ d.published := by
        intro mem
        have distinct := tallied.distinct
        simp only [Discovery.upcoming, at_, List.map_cons] at distinct
        exact (List.nodup_append.mp distinct).2.2 source.id mem source.id List.mem_cons_self rfl
      refine { numbered with queued := ?_, published := ?_ }
      · intro queued mem
        obtain old | added := List.mem_append.mp mem
        · exact numbered.queued queued old
        · obtain rfl := List.mem_singleton.mp added
          refine ⟨rfl, Decidable.byContradiction fun called => unpublished ?_⟩
          exact numbered.published source.id called
      · intro id called
        exact List.mem_append_left _ (numbered.published id called)
  | firstScanFails | giveUp | refused | stop =>
      have buffer := (Discovery.leftBehind_same d r.hub).2.1
      exact numbered.congr calls buffer rfl fun _ _ at_ => .inl at_
  | scan | panic | list | complete | rest | wake =>
      exact numbered.congr calls rfl rfl fun _ _ at_ => .inl at_

/-- A worker goes on without a call. -/
theorem Numbered.still (numbered : Numbered s r d) (some_ : 0 < s.retry.maxAttempts)
    (at_ : r.workers[i]? = some x) (moved : x.Moves w s r.hub hub x')
    (calls : hub.decoderCalls = r.hub.decoderCalls) :
    Numbered s { r with hub, workers := r.workers.set i x' } d := by
  have same : hub.callsFor = r.hub.callsFor := by
    funext id
    rw [Hub.callsFor, calls, Hub.callsFor]
  constructor
  case queued =>
    intro queued mem
    rw [same]
    exact numbered.queued queued (moved.work_subset mem)
  case published => rw [same]; exact numbered.published
  case numbers => rw [same, calls]; exact numbered.numbers
  case within => rw [same]; exact numbered.within
  case counts =>
    intro j y at_j a busy
    obtain ⟨rfl, rfl⟩ | ⟨_, old⟩ := getElem?_set_cases at_j
    · exact moved.counts some_ numbered.queued (numbered.counts j x at_) a busy
    · rw [same]
      exact numbered.counts j y old a busy

/-- A worker begins the next call for its item. -/
theorem Numbered.begins (numbered : Numbered s r d) (tallied : Tallied r d c)
    (some_ : 0 < s.retry.maxAttempts) (at_ : r.workers[i]? = some x)
    (moved : x.Moves w s r.hub hub x') (waits : x.point = .busy (.waiting item))
    (calls : hub.decoderCalls = r.hub.decoderCalls ++ [⟨r.hub.now, item.id, item.attempt⟩]) :
    Numbered s { r with hub, workers := r.workers.set i x' } d := by
  have held : x.held? = some item.id := Worker.held_busy waits rfl
  obtain ⟨next, within⟩ := numbered.counts i x at_ _ waits
  have mine : hub.callsFor item.id = r.hub.callsFor item.id + 1 := by
    rw [Hub.callsFor_append calls, if_pos rfl]
  have other {id : String} (ne : item.id ≠ id) : hub.callsFor id = r.hub.callsFor id := by
    rw [Hub.callsFor_append calls, if_neg ne, Nat.add_zero]
  constructor
  case queued =>
    intro queued mem
    have before := moved.work_subset mem
    have ne : item.id ≠ queued.id := fun same =>
      tallied.unqueued at_ held (same ▸ List.mem_map_of_mem before)
    rw [other ne]
    exact numbered.queued queued before
  case published =>
    intro id called
    by_cases own : item.id = id
    · exact own ▸ tallied.apart.2 (mem_carriedIds at_ held)
    · exact numbered.published id (by rwa [other own] at called)
  case numbers =>
    intro id
    dsimp only
    rw [calls, List.filter_append, List.map_append, numbered.numbers]
    by_cases own : item.id = id
    · subst own
      rw [mine, List.range'_1_concat, Nat.add_comm 1, ← next]
      simp
    · rw [other own]
      simp [own]
  case within =>
    intro id
    by_cases own : item.id = id
    · subst own
      rw [mine, ← next]
      exact within
    · rw [other own]
      exact numbered.within id
  case counts =>
    intro j y at_j a busy
    obtain ⟨rfl, rfl⟩ | ⟨ne, old⟩ := getElem?_set_cases at_j
    · exact moved.counts some_ numbered.queued (numbered.counts j x at_) a busy
    · -- no other worker has an item of this id
      refine (numbered.counts j y old a busy).congr fun item' of => other fun same => ne ?_
      exact tallied.alone old at_ (Worker.held_busy busy of) (same ▸ held)

theorem Numbered.acts {a : Action} (numbered : Numbered s r d) (coherent : Coherent s r d c)
    (tallied : Tallied r d c) (some_ : 0 < s.retry.maxAttempts) (h : Acts w r d c a r' d' c') :
    Numbered s r' d' := by
  cases h with
  | discovery hub _ moved => exact numbered.discovery tallied moved
  | consumption hub _ moved =>
      exact numbered.congr moved.decoderCalls (congrArg Queue.buffer moved.work.1) rfl
        fun _ _ at_ => .inl at_
  | supervisor signal _ supervises =>
      have attended := supervises.attended
      exact numbered.congr supervises.calls.1 attended.work.1 supervises.published
        fun _ _ => attended.worker_or_over
  | worker i x x' hub at_ moved =>
      rw [coherent.fits.settings] at moved
      obtain calls | ⟨item, _, _, _, waits, _, calls⟩ := moved.begins
      · exact numbered.still some_ at_ moved calls
      · exact numbered.begins tallied some_ at_ moved waits calls

theorem owned_launch (s : Settings) (now : Nat) (cancelled : Bool) :
    Owned [] (fresh s now cancelled).launch where
  calls := rfl
  owned _ _ _ _ _ _ mem := by cases mem
  owner _ mem := by cases mem

theorem Owned.uncalled (owned : Owned log r) {p : String} (none : r.hub.callsFor p = 0) :
    ∀ e ∈ log, e.call.id ≠ p := by
  intro e mem same
  have called : e.call ∈ r.hub.decoderCalls := owned.calls ▸ List.mem_map_of_mem mem
  have among : e.call ∈ r.hub.decoderCalls.filter (·.id = p) :=
    List.mem_filter.mpr ⟨called, decide_eq_true same⟩
  rw [List.eq_nil_of_length_eq_zero none] at among
  cases among

theorem Owned.congr (owned : Owned log r) (none : new = [])
    (calls : r'.hub.decoderCalls = r.hub.decoderCalls)
    (workers : ∀ (i : Nat) x, r'.workers[i]? = some x → r.workers[i]? = some x ∨ x.Over) :
    Owned (log ++ new) r' := by
  subst none
  rw [List.append_nil]
  refine ⟨owned.calls.trans calls.symm, fun i x at_ p held => ?_, owned.owner⟩
  obtain going | ⟨e, ended⟩ := workers i x at_
  · exact owned.owned i x going p held
  · simp [Worker.held?, ended] at held

/-- A worker goes on without a call: it keeps its item, or takes one not yet called for. -/
theorem Owned.still (owned : Owned log r) (numbered : Numbered s r d) (none : new = [])
    (at_ : r.workers[i]? = some x) (moved : x.Moves w s r.hub hub x')
    (calls : hub.decoderCalls = r.hub.decoderCalls) :
    Owned (log ++ new) { r with hub, workers := r.workers.set i x' } := by
  subst none
  rw [List.append_nil]
  refine ⟨owned.calls.trans calls.symm, fun j y at_j p held e mem same => ?_, owned.owner⟩
  obtain ⟨rfl, rfl⟩ | ⟨_, old⟩ := getElem?_set_cases at_j
  · obtain before | queued := moved.holds held
    · exact owned.owned j x at_ p before e mem same
    · obtain ⟨taken, waits, rfl⟩ := List.mem_map.mp queued
      exact absurd same (owned.uncalled (numbered.queued taken waits).2 e mem)
  · exact owned.owned j y old p held e mem same

/-- A worker begins the next call for its item. -/
theorem Owned.begins {due : Option Nat} {heeds : Bool} {reply : Reply Fault Decoded}
    (owned : Owned log r) (tallied : Tallied r d c) (at_ : r.workers[i]? = some x)
    (waits : x.point = .busy (.waiting item))
    (called : x' = { x with point := .busy (.calling item due heeds reply) })
    (calls : hub.decoderCalls = r.hub.decoderCalls ++ [⟨r.hub.now, item.id, item.attempt⟩]) :
    Owned (log ++ [⟨i, r.hub.now, item.id, item.attempt⟩])
      { r with hub, workers := r.workers.set i x' } := by
  have held : x.held? = some item.id := Worker.held_busy waits rfl
  have held' : x'.held? = some item.id := by rw [called]; rfl
  have mine := owned.owned i x at_ item.id held
  constructor
  case calls =>
    rw [List.map_append, owned.calls]
    exact calls.symm
  case owned =>
    intro j y at_j p held_y e logged same
    have unique := getElem?_set_cases at_j
    obtain before | last := List.mem_append.mp logged
    · obtain ⟨rfl, rfl⟩ | ⟨_, old⟩ := unique
      · obtain rfl := Option.some.inj (held'.symm.trans held_y)
        exact mine e before same
      · exact owned.owned j y old p held_y e before same
    · obtain rfl := List.mem_singleton.mp last
      obtain ⟨rfl, rfl⟩ | ⟨ne, old⟩ := unique
      · rfl
      · exact absurd (tallied.alone old at_ held_y (same ▸ held)) ne
  case owner =>
    intro e logged e' logged' same
    obtain before | last := List.mem_append.mp logged <;>
      obtain before' | last' := List.mem_append.mp logged'
    · exact owned.owner e before e' before' same
    · obtain rfl := List.mem_singleton.mp last'
      exact mine e before same
    · obtain rfl := List.mem_singleton.mp last
      exact (mine e' before' same.symm).symm
    · rw [List.mem_singleton.mp last, List.mem_singleton.mp last']

theorem Owned.acts {a : Action} (owned : Owned log r) (numbered : Numbered s r d)
    (coherent : Coherent s r d c) (tallied : Tallied r d c) (h : Acts w r d c a r' d' c') :
    Owned (log ++ r.begun a r') r' := by
  cases h with
  | discovery hub _ moved => exact owned.congr rfl moved.calls.1 fun _ _ at_ => .inl at_
  | consumption hub _ moved => exact owned.congr rfl moved.decoderCalls fun _ _ at_ => .inl at_
  | supervisor signal _ supervises =>
      exact owned.congr rfl supervises.calls.1 fun _ _ => supervises.attended.worker_or_over
  | worker i x x' hub at_ moved =>
      rw [coherent.fits.settings] at moved
      obtain calls | ⟨item, due, heeds, reply, waits, called, calls⟩ := moved.begins
      · exact owned.still numbered (by simp [begun, calls]) at_ moved calls
      · have one : r.begun (.worker i) { r with hub, workers := r.workers.set i x' } =
            [⟨i, r.hub.now, item.id, item.attempt⟩] := by simp [begun, calls]
        rw [one]
        exact owned.begins tallied at_ waits called calls

/-- A run with the calls that have been made in it. -/
def Logged (s : Settings) (log : List OwnedCall) (r : Run) : Prop :=
  (∃ now cancelled, r = fresh s now cancelled ∧ log = []) ∨
    ∃ d c, Coherent s r d c ∧ Tallied r d c ∧ Numbered s r d ∧ Owned log r

theorem Logged.happen {a : Action} (logged : Logged s log r) (some_ : 0 < s.retry.maxAttempts)
    (h : r.happen w a = some r') :
    Logged s (log ++ r.begun a r') r' ∧
      ∀ e ∈ r.begun a r', e.call.id ∉ r.inFlight.map (·.id) := by
  have silent (none : r.begun a r' = []) (logged' : Logged s log r') :
      Logged s (log ++ r.begun a r') r' ∧
        ∀ e ∈ r.begun a r', e.call.id ∉ r.inFlight.map (·.id) := by
    rw [none, List.append_nil]
    exact ⟨logged', fun _ mem => absurd mem List.not_mem_nil⟩
  obtain ⟨now, cancelled, rfl, rfl⟩ | ⟨d, c, coherent, tallied, numbered, owned⟩ := logged
  · obtain ⟨rfl, rfl⟩ | ⟨time, rfl, _, rfl⟩ | stepped := cases_of_happen h
    · exact silent rfl (.inl ⟨now, true, rfl, rfl⟩)
    · exact silent rfl (.inl ⟨time, cancelled, rfl, rfl⟩)
    · obtain rfl := stepTask_fresh stepped
      have launched : Logged s [] (fresh s now cancelled).launch :=
        .inr ⟨_, _, coherent_launch s now cancelled, tallied_launch s now cancelled,
          numbered_launch s now cancelled, owned_launch s now cancelled⟩
      exact silent (by cases a <;> rfl) launched
  · obtain ⟨rfl, rfl⟩ | ⟨time, rfl, _, rfl⟩ | stepped := cases_of_happen h
    · exact silent rfl
        (.inr ⟨d, c, coherent.cancel, { tallied with }, { numbered with }, { owned with }⟩)
    · exact silent rfl
        (.inr ⟨d, c, coherent.clock time, { tallied with }, { numbered with }, { owned with }⟩)
    · obtain ⟨d', c', acts⟩ := coherent.launched.acts stepped
      exact ⟨.inr ⟨d', c', coherent.works acts.works, tallied.works coherent.order acts.works,
          numbered.acts coherent tallied some_ acts, owned.acts numbered coherent tallied acts⟩,
        tallied.unflown acts⟩

theorem Logged.replay {actions : List Action} (logged : Logged s log r)
    (some_ : 0 < s.retry.maxAttempts) (course : r.replay w actions = some r') :
    Logged s (log ++ r.callLog w actions) r' := by
  induction actions generalizing r log with
  | nil =>
      obtain rfl : r = r' := Option.some.inj course
      simpa [callLog, chronicle] using logged
  | cons a actions ih =>
      obtain ⟨r₁, happens, rest⟩ := replay_cons.mp course
      have all := ih (logged.happen some_ happens).1 rest
      simpa [callLog, chronicle_cons happens, List.append_assoc] using all

end

theorem maxAttempts_pos_of_begin {r₀ : Run} (started : begin s = .ok r₀) :
    0 < s.retry.maxAttempts :=
  (validate_eq_ok_iff.mp (begin_eq started).1).2.2.1

theorem logged_of_replay {r₀ : Run} {actions : List Action} (started : begin s = .ok r₀)
    (course : r₀.replay w actions = some r) : Logged s (r₀.callLog w actions) r := by
  have some_ := maxAttempts_pos_of_begin started
  have first : Logged s [] r₀ := .inl ⟨0, false, (begin_eq started).2.2, rfl⟩
  simpa using first.replay some_ course

theorem inFlight_sublist (xs : List Worker) :
    ((xs.filterMap Worker.called?).map (·.id)).Sublist (xs.flatMap Worker.carries) := by
  induction xs with
  | nil => exact .refl _
  | cons x xs ih =>
      rw [List.filterMap_cons, List.flatMap_cons]
      cases called : x.called? with
      | none => exact ih.trans (List.sublist_append_right _ _)
      | some item =>
          have carries : x.carries = item.id :: x.lost.toList := by
            simp [Worker.carries, Worker.held_of_called called]
          rw [carries, List.map_cons, List.cons_append]
          exact (ih.trans (List.sublist_append_right _ _)).cons_cons item.id

/-- The calls for an id are all of one worker, and numbered from one. -/
theorem Owned.of_id {log : List OwnedCall} (owned : Owned log r) (numbered : Numbered s r d)
    (id : String) :
    ∃ i k, k ≤ s.retry.maxAttempts ∧
      (log.filter (·.call.id = id)).map (fun e => (e.worker, e.call.attempt)) =
        (List.range' 1 k).map fun n => (i, n) := by
  have attempts : (log.filter (·.call.id = id)).map (·.call.attempt) =
      List.range' 1 (r.hub.callsFor id) := by
    rw [← numbered.numbers, ← owned.calls, List.filter_map, List.map_map]
    rfl
  obtain ⟨i, own⟩ : ∃ i, ∀ e ∈ log.filter (·.call.id = id), e.worker = i := by
    cases mine : log.filter (·.call.id = id) with
    | nil => exact ⟨0, by simp⟩
    | cons first others =>
        refine ⟨first.worker, fun e mem => ?_⟩
        rw [← mine] at mem
        have mem' : first ∈ log.filter (·.call.id = id) := mine ▸ List.mem_cons_self
        simp only [List.mem_filter, decide_eq_true_eq] at mem mem'
        exact owned.owner e mem.1 first mem'.1 (mem.2.trans mem'.2.symm)
  refine ⟨i, _, numbered.within id, ?_⟩
  rw [← attempts, List.map_map]
  exact List.map_congr_left fun e mem => congrArg (·, e.call.attempt) (own e mem)

/-- The calls of a run so far. -/
structure Exclusive (s : Settings) (log : List OwnedCall) (r : Run) : Prop where
  calls : log.map OwnedCall.call = r.hub.decoderCalls
  capped : r.inFlight.length ≤ s.workers
  distinct : (r.inFlight.map (·.id)).Nodup
  numbered : ∀ id, ∃ i k, k ≤ s.retry.maxAttempts ∧
    (log.filter (·.call.id = id)).map (fun e => (e.worker, e.call.attempt)) =
      (List.range' 1 k).map fun n => (i, n)

theorem Logged.exclusive {log : List OwnedCall} (logged : Logged s log r) : Exclusive s log r := by
  obtain ⟨now, cancelled, rfl, rfl⟩ | ⟨d, c, coherent, tallied, numbered, owned⟩ := logged
  · exact ⟨rfl, Nat.zero_le _, List.nodup_nil, fun _ => ⟨0, 0, Nat.zero_le _, rfl⟩⟩
  · refine ⟨owned.calls, ?_, ?_, owned.of_id numbered⟩
    · rw [← coherent.fits.crew]
      exact List.length_filterMap_le _ _
    · exact (List.nodup_append.mp tallied.apart.1).2.1.sublist (inFlight_sublist r.workers)

/-- In a run each item has one owner, who makes the calls for it one after another. However many
callers a stage has, its slots bound the calls in flight, and all are free when none is. -/
theorem one_owner_within_slots (w : World) (s : Settings) :
    (∀ r₀ r actions, begin s = .ok r₀ → r₀.replay w actions = some r →
      Exclusive s (r₀.callLog w actions) r ∧
        ∀ a r', r.happen w a = some r' → ∀ e ∈ r.begun a r', e.call.id ∉ r.inFlight.map (·.id)) ∧
      ∀ workers p₀ p, Pool.Fresh workers p₀ → Relation.ReflTransGen (Pool.Event w s) p₀ p →
        p.hub.running = p.inFlight ∧ p.inFlight ≤ max 1 workers ∧
          (p.inFlight = 0 → p.hub.slots = max 1 workers) := by
  constructor
  · intro r₀ r actions started course
    have some_ := maxAttempts_pos_of_begin started
    have logged := logged_of_replay started course
    exact ⟨logged.exclusive, fun a r' happens => (logged.happen some_ happens).2⟩
  · intro workers p₀ p fresh reached
    have capped := Pool.capped_of_reached fresh reached
    have slots := capped.slots
    exact ⟨capped.running, by omega, fun none => by omega⟩

/-- A decoder that fails on its first call for an item. -/
def flakyWorld : World where
  catalog _ := ⟨some 0, .gives threeSources⟩
  decoder id n :=
    { delay := some 0
      reply := if n = 0 then .fails (.exit (some 1) "") else .gives ⟨[Frame.name id 0], []⟩
      heeds := true }
  reset := ⟨some 0, .gives ()⟩
  accept _ _ := ⟨some 0, .gives ()⟩

theorem callLog_listed (s : Settings) (actions : List Action) :
    (fresh s 0 false).callLog flakyWorld
        ([.supervisor .launch, .discovery, .discovery] ++ actions) =
      (listed s).callLog flakyWorld actions :=
  chronicle_append (replay_of_follow (follow_scanned s rfl [])) actions

/-- One worker makes the second call for its item while the other makes its first. Of two callers
of a stage with one slot the first is ended in its call, and the call of the second fails. -/
theorem one_owner_within_slots_retried :
    (∃ r actions,
      (fresh { workers := 2, retry := .immediate 2 } 0 false).replay flakyWorld actions = some r ∧
      (fresh { workers := 2, retry := .immediate 2 } 0 false).callLog flakyWorld actions =
        [⟨0, 0, "a", 1⟩, ⟨1, 0, "b", 1⟩, ⟨0, 0, "a", 2⟩] ∧
      r.inFlight.map (·.id) = ["a", "b"] ∧ (r.inFlight.map (·.id)).Nodup) ∧
    ∃ p₀ p, Pool.Fresh 1 p₀ ∧ Relation.ReflTransGen (Pool.Event flakyWorld {}) p₀ p ∧
      p.hub.decoderCalls = [⟨0, "a", 1⟩, ⟨0, "b", 1⟩] ∧ p.inFlight = 0 ∧ p.hub.slots = 1 := by
  constructor
  · let s : Settings := { workers := 2, retry := .immediate 2 }
    let later : List Action :=
      [.discovery, .discovery, .worker 0, .worker 1, .worker 0, .worker 1, .worker 0, .worker 0,
        .worker 0]
    have arrives : ((listed s).follow flakyWorld later).any (fun r =>
        r.inFlight.map (·.id) = ["a", "b"]) := by decide
    have log : (listed s).callLog flakyWorld later =
        [⟨0, 0, "a", 1⟩, ⟨1, 0, "b", 1⟩, ⟨0, 0, "a", 2⟩] := by decide
    obtain ⟨r, arrives, flies⟩ := (Option.any_eq_true _ _).mp arrives
    have course := replay_of_follow ((follow_scanned s rfl later).trans arrives)
    have exclusive := ((one_owner_within_slots flakyWorld s).1 _ r _ rfl course).1
    exact ⟨r, _, course, (callLog_listed s later).trans log, of_decide_eq_true flies,
      exclusive.distinct⟩
  · let p₀ : Pool :=
      { hub := { work := { capacity := 1 }, artifacts := { capacity := 1 }, slots := 1 } }
    have fresh : Pool.Fresh 1 p₀ := ⟨rfl, rfl, rfl, rfl⟩
    have first : Relation.ReflTransGen (Pool.Event flakyWorld {}) p₀ _ :=
      .tail .refl (.process (.new "a" "a.raw" Instant.epoch) false)
    have both := first.tail (.process (.new "b" "b.raw" Instant.epoch) false)
    have called := both.tail (.step 0 rfl rfl)
    have aborted := called.tail (.abort 0 rfl)
    have called' := aborted.tail (.step 1 rfl rfl)
    have failed := called'.tail (.step 1 rfl rfl)
    obtain ⟨_, _, free⟩ := (one_owner_within_slots flakyWorld {}).2 1 p₀ _ fresh failed
    exact ⟨p₀, _, fresh, failed, rfl, rfl, free rfl⟩

end Run

end DecodePipeline
