import DecodePipeline.Proofs.Queue.History
import Mathlib.Data.List.Nodup

/-!
The bells of a queue. Pushes wait for room and pops for items; seen from the bells the two
are alike. What a step does to the bells is listed once, for both kinds.
-/

namespace DecodePipeline.Queue

variable {α : Type}

/-- What a call waits for: a push for room, a pop for an item. -/
inductive Kind where
  | push
  | pop
  deriving Repr, DecidableEq

def Kind.other : Kind → Kind
  | push => pop
  | pop => push

theorem Kind.eq_or_eq_other (k k' : Kind) : k' = k ∨ k' = k.other := by
  cases k <;> cases k' <;> simp [other]

theorem Kind.other_ne (k : Kind) : k.other ≠ k := by
  cases k <;> simp [other]

def Wish.kind : Wish α → Kind
  | .push _ => .push
  | .pop => .pop

def Call.kind (c : Call α) : Kind := c.wish.kind

/-- A call that was woken alone leaves a ring behind if it goes without looking. -/
def Call.owes (c : Call α) : Option Kind :=
  if c.woken = some .one then some c.kind else none

theorem Call.owes_of_ne {c : Call α} {k : Kind} (ne : c.kind ≠ k) : c.owes ≠ some k := by
  unfold owes
  grind

/-- Whether a call that ended succeeded, and what it waited for then. -/
def CallResult.served : CallResult α → Option Kind
  | .pushed => some .push
  | .popped _ => some .pop
  | .refused _ | .ended | .cancelled => none

/-- How many calls of a kind could succeed now, one after another. -/
def supply (q : Queue α) : Kind → Nat
  | .push => q.capacity - q.buffer.length
  | .pop => q.buffer.length

/-- A call of a kind succeeds: it uses up a supply and makes one for the other kind. -/
structure Serves (k : Kind) (q q' : Queue α) : Prop where
  used : q.supply k = q'.supply k + 1
  made : q'.supply k.other = q.supply k.other + 1
  closed : q'.closed = q.closed

theorem serves_of_tryPush {q q' : Queue α} {a : α} (h : q.tryPush a = (.accepted, q')) :
    Serves .push q q' ∧ q.closed = false := by
  cases effect_of_tryPush h with
  | push _ opened room eq =>
      subst eq
      refine ⟨⟨?_, by simp [supply, Kind.other], rfl⟩, opened⟩
      simp only [supply, List.length_append, List.length_singleton]
      omega

theorem serves_of_tryPop {q q' : Queue α} {a : α} (h : q.tryPop = (.item a, q'))
    (within : q.buffer.length ≤ q.capacity) : Serves .pop q q' := by
  cases effect_of_tryPop h with
  | pop _ buffer capacity closed =>
      rw [buffer, List.length_cons] at within
      refine ⟨by simp [supply, buffer], ?_, closed⟩
      simp only [supply, Kind.other, capacity, buffer, List.length_cons]
      omega

theorem full_of_tryPush {q q' : Queue α} {a : α} (h : q.tryPush a = (.full, q')) :
    q.closed = false ∧ q.supply .push = 0 := by
  unfold tryPush at h
  split at h
  · cases h
  · next opened =>
      split at h
      · next full => exact ⟨eq_false_of_ne_true opened, Nat.sub_eq_zero_of_le full⟩
      · cases h

theorem closed_of_tryPush {q q' : Queue α} {a : α} (h : q.tryPush a = (.closed, q')) :
    q.closed = true := by
  unfold tryPush at h
  split at h
  · next closed => exact closed
  · split at h <;> cases h

theorem empty_of_tryPop {q q' : Queue α} (h : q.tryPop = (.empty, q')) :
    q.closed = false ∧ q.supply .pop = 0 := by
  cases buffer : q.buffer with
  | cons a rest => simp [tryPop, buffer] at h
  | nil =>
      have opened : q.closed = false ∧ q = q' := by simpa [tryPop, buffer] using h
      exact ⟨opened.1, by simp [supply, buffer]⟩

theorem closed_of_tryPop {q q' : Queue α} (h : q.tryPop = (.closed, q')) :
    q.closed = true ∧ q.supply .pop = 0 := by
  cases buffer : q.buffer with
  | cons a rest => simp [tryPop, buffer] at h
  | nil =>
      have closed : q.closed = true ∧ q = q' := by simpa [tryPop, buffer] using h
      exact ⟨closed.1, by simp [supply, buffer]⟩

namespace Hall

def bell (h : Hall α) : Kind → Bell
  | .push => h.notFull
  | .pop => h.notEmpty

def ring (h : Hall α) : Kind → Hall α
  | .push => h.ringNotFull
  | .pop => h.ringNotEmpty

/-- The numbers of the calls that have not ended. -/
def numbers (h : Hall α) : List Nat := h.calls.map Call.id

/-- How many calls of a kind were woken alone and have not run yet. -/
def promised (h : Hall α) (k : Kind) : Nat :=
  h.calls.countP fun c => c.kind = k ∧ c.woken = some .one

theorem bell_ringNotFull (h : Hall α) (k : Kind) :
    (h.ringNotFull.bell k).waiting =
      if k = .push then h.notFull.waiting.tail else (h.bell k).waiting := by
  cases k <;> cases waiting : h.notFull.waiting <;> simp [ringNotFull, waiting, bell, markWoken]

theorem bell_ringNotEmpty (h : Hall α) (k : Kind) :
    (h.ringNotEmpty.bell k).waiting =
      if k = .pop then h.notEmpty.waiting.tail else (h.bell k).waiting := by
  cases k <;> cases waiting : h.notEmpty.waiting <;> simp [ringNotEmpty, waiting, bell, markWoken]

/-- A ring takes the call off the bell that waits longest. -/
theorem bell_ring (h : Hall α) (k k' : Kind) :
    ((h.ring k).bell k').waiting =
      if k' = k then (h.bell k).waiting.tail else (h.bell k').waiting := by
  cases k with
  | push => exact bell_ringNotFull h k'
  | pop => exact bell_ringNotEmpty h k'

@[simp] theorem ring_queue (h : Hall α) (k : Kind) : (h.ring k).queue = h.queue := by
  cases k with
  | push => exact ringNotFull_queue h
  | pop => exact ringNotEmpty_queue h

@[simp] theorem ring_fired (h : Hall α) (k : Kind) : (h.ring k).fired = h.fired := by
  cases k with
  | push => simp only [ring, ringNotFull]; split <;> rfl
  | pop => simp only [ring, ringNotEmpty]; split <;> rfl

theorem ring_calls_of_nil {h : Hall α} {k : Kind} (nobody : (h.bell k).waiting = []) :
    (h.ring k).calls = h.calls := by
  cases k with
  | push => simp only [bell] at nobody; simp [ring, ringNotFull, nobody]
  | pop => simp only [bell] at nobody; simp [ring, ringNotEmpty, nobody]

theorem ring_calls_of_cons {h : Hall α} {k : Kind} {id : Nat} {rest : List Nat}
    (longest : (h.bell k).waiting = id :: rest) :
    (h.ring k).calls = (h.markWoken id .one).calls := by
  cases k with
  | push => simp only [bell] at longest; simp [ring, ringNotFull, longest, markWoken]
  | pop => simp only [bell] at longest; simp [ring, ringNotEmpty, longest, markWoken]

@[simp] theorem bell_remove (h : Hall α) (id : Nat) (k : Kind) :
    ((h.remove id).bell k).waiting = (h.bell k).waiting.filter (· ≠ id) := by
  cases k <;> rfl

theorem leave_eq (h : Hall α) (c : Call α) :
    h.leave c = match c.owes with
      | some k => (h.remove c.id).ring k
      | none => h.remove c.id := by
  obtain ⟨id, wish, token, woken⟩ := c
  cases woken with
  | none => rfl
  | some wake => cases wake <;> cases wish <;> rfl

theorem bell_sleep (h : Hall α) (c : Call α) (k : Kind) :
    ((h.sleep c).bell k).waiting =
      (h.bell k).waiting ++ if c.kind = k then [c.id] else [] := by
  obtain ⟨id, wish, token, woken⟩ := c
  cases wish <;> cases k <;> simp [sleep, bell, Call.kind, Wish.kind]

theorem sleep_calls (h : Hall α) (c : Call α) :
    (h.sleep c).calls =
      h.calls.map fun d => if d.id = c.id then { d with woken := none } else d := by
  unfold sleep
  simp only
  split <;> rfl

@[simp] theorem bell_wakeAll (h : Hall α) (k : Kind) : (h.wakeAll.bell k).waiting = [] := by
  cases k <;> rfl

/-- Who waits at a bell is woken with all others, and nobody else is. -/
theorem exists_of_mem_wakeAll {h : Hall α} {c : Call α} (mem : c ∈ h.wakeAll.calls) :
    ∃ d ∈ h.calls,
      (c = d ∧ ∀ k, d.id ∉ (h.bell k).waiting) ∨ c = { d with woken := some .all } := by
  simp only [wakeAll, List.mem_map] at mem
  obtain ⟨d, mem, rfl⟩ := mem
  refine ⟨d, mem, ?_⟩
  split
  · exact .inr rfl
  · next unheard => exact .inl ⟨rfl, fun k => by cases k <;> simp_all [bell]⟩

/-- The kept ring of a kind is forgotten. -/
def hush (h : Hall α) : Kind → Hall α
  | .push => { h with notFull := { h.notFull with kept := false } }
  | .pop => { h with notEmpty := { h.notEmpty with kept := false } }

@[simp] theorem hush_queue (h : Hall α) (k : Kind) : (h.hush k).queue = h.queue := by
  cases k <;> rfl

theorem numbers_markWoken (h : Hall α) (id : Nat) (w : Wake) :
    (h.markWoken id w).numbers = h.numbers := by
  simp only [numbers, markWoken, List.map_map]
  exact List.map_congr_left fun c _ => by by_cases same : c.id = id <;> simp [same]

@[simp] theorem numbers_ring (h : Hall α) (k : Kind) : (h.ring k).numbers = h.numbers := by
  cases waiting : (h.bell k).waiting with
  | nil => rw [numbers, ring_calls_of_nil waiting, numbers]
  | cons id rest => rw [numbers, ring_calls_of_cons waiting, ← numbers, numbers_markWoken]

@[simp] theorem numbers_hush (h : Hall α) (k : Kind) : (h.hush k).numbers = h.numbers := by
  cases k <;> rfl

theorem numbers_remove (h : Hall α) (id : Nat) : (h.remove id).numbers.Sublist h.numbers :=
  List.filter_sublist.map _

theorem numbers_leave (h : Hall α) (c : Call α) : (h.leave c).numbers.Sublist h.numbers := by
  rw [leave_eq]
  split
  · rw [numbers_ring]
    exact numbers_remove h c.id
  · exact numbers_remove h c.id

@[simp] theorem numbers_sleep (h : Hall α) (c : Call α) : (h.sleep c).numbers = h.numbers := by
  rw [numbers, sleep_calls, List.map_map]
  exact List.map_congr_left fun d _ => by by_cases same : d.id = c.id <;> simp [same]

@[simp] theorem numbers_wakeAll (h : Hall α) : h.wakeAll.numbers = h.numbers := by
  simp only [numbers, Hall.wakeAll, List.map_map]
  exact List.map_congr_left fun c _ => by simp only [Function.comp_apply]; split <;> rfl

/-- What a call does that looks at the queue. -/
inductive Looked (h : Hall α) (c : Call α) : Hall α → Option (CallResult α) → Prop
  | cancelled : h.isFired c = true → Looked h c (h.leave c) (some .cancelled)
  | served (q : Queue α) (result : CallResult α) : h.isFired c = false →
      Serves c.kind h.queue q → (c.kind = .push → h.queue.closed = false) →
      result.served = some c.kind →
      Looked h c (({ h.remove c.id with queue := q }.hush c.kind).ring c.kind.other) (some result)
  | ended (result : CallResult α) : h.isFired c = false → h.queue.closed = true →
      (c.kind = .pop → h.queue.supply .pop = 0) → result.served = none →
      Looked h c ((h.remove c.id).hush c.kind) (some result)
  | asleep : h.isFired c = false → h.queue.closed = false → h.queue.supply c.kind = 0 →
      Looked h c (h.sleep c) none

theorem looked {h : Hall α} (within : h.queue.buffer.length ≤ h.queue.capacity) (c : Call α) :
    Looked h c (h.look c).1 (h.look c).2 := by
  obtain ⟨id, wish, token, woken⟩ := c
  simp only [look]
  split
  · next fired => exact .cancelled fired
  · next live =>
      have live := eq_false_of_ne_true live
      cases wish with
      | push a =>
          rcases outcome : h.queue.tryPush a with ⟨_ | _ | _, q⟩ <;> simp only [outcome]
          · obtain ⟨serves, opened⟩ := serves_of_tryPush outcome
            exact .served q .pushed live serves (fun _ => opened) rfl
          · obtain ⟨opened, full⟩ := full_of_tryPush outcome
            exact .asleep live opened full
          · have closed := closed_of_tryPush outcome
            exact .ended (.refused a) live closed (fun other => by cases other) rfl
      | pop =>
          rcases outcome : h.queue.tryPop with ⟨a | _ | _, q⟩ <;> simp only
          · have serves := serves_of_tryPop outcome within
            exact .served q (.popped a) live serves (fun other => by cases other) rfl
          · obtain ⟨opened, empty⟩ := empty_of_tryPop outcome
            exact .asleep live opened empty
          · obtain ⟨closed, empty⟩ := closed_of_tryPop outcome
            exact .ended .ended live closed (fun _ => empty) rfl

theorem Looked.numbers {h h' : Hall α} {c : Call α} {result : Option (CallResult α)}
    (looked : Looked h c h' result) : h'.numbers.Sublist h.numbers := by
  cases looked with
  | cancelled => exact numbers_leave h c
  | served | ended =>
      simp only [numbers_ring, numbers_hush]
      exact numbers_remove h c.id
  | asleep => simp

/-- The number that a start carries. -/
def Step.number? : Step α → Option Nat
  | .start id _ _ => some id
  | .tryPush _ | .tryPop | .close | .resume _ | .drop _ | .cancel | .renew => none

def Step.isResume : Step α → Bool
  | .resume _ => true
  | .tryPush _ | .tryPop | .close | .start _ _ _ | .drop _ | .cancel | .renew => false

/-- Which waiting operation of a kind a step starts. -/
def Step.started (k : Kind) : Step α → List Nat
  | .start id wish _ => if wish.kind = k then [id] else []
  | .tryPush _ | .tryPop | .close | .resume _ | .drop _ | .cancel | .renew => []

/-- Which waiting operation of a kind a step shows to have succeeded. -/
def Shown.served (k : Kind) : Shown α → List Nat
  | .call id result => if result.served = some k then [id] else []
  | .nothing | .pushed _ | .popped _ => []

/-- What a step does, for pushes and pops alike. -/
inductive Moved (h : Hall α) : Step α → Shown α → Hall α → Prop
  | still {s : Step α} {shown : Shown α} : s.number? = none → (∀ k, shown.served k = []) →
      Moved h s shown h
  | taken {s : Step α} {shown : Shown α} (k : Kind) (q : Queue α) : s.number? = none →
      s.isResume = false → (∀ k, shown.served k = []) → Serves k h.queue q →
      Moved h s shown ({ h with queue := q }.ring k.other)
  | closed : h.queue.closed = false →
      Moved h .close .nothing { h with queue := h.queue.close }.wakeAll
  | began {h' : Hall α} {result : Option (CallResult α)} (c : Call α) (cancellable : Bool) :
      c.woken = none → Looked { h with calls := h.calls ++ [c] } c h' result →
      Moved h (.start c.id c.wish cancellable) (showCall c.id (h', result)).1 h'
  | resumed {h' : Hall α} {result : Option (CallResult α)} (c : Call α) :
      c ∈ h.calls → h.isRunnable c = true → Looked h c h' result →
      Moved h (.resume c.id) (showCall c.id (h', result)).1 h'
  | dropped (c : Call α) : c ∈ h.calls → Moved h (.drop c.id) .nothing (h.leave c)
  | signalled {s : Step α} (token : Nat) (fired : List Nat) : s.number? = none →
      s.isResume = false → Moved h s .nothing { h with token, fired }

theorem showCall_hall (id : Nat) (out : Hall α × Option (CallResult α)) :
    (showCall id out).2 = out.1 := by
  obtain ⟨h, _ | result⟩ := out <;> rfl

theorem moved {h : Hall α} (within : h.queue.buffer.length ≤ h.queue.capacity) (s : Step α) :
    Moved h s (h.step s).1 (h.step s).2 := by
  cases s with
  | tryPush a =>
      simp only [step]
      rcases outcome : h.queue.tryPush a with ⟨_ | _ | _, q⟩
      · exact .taken .push q rfl rfl (fun _ => rfl) (serves_of_tryPush outcome).1
      · exact .still rfl fun _ => rfl
      · exact .still rfl fun _ => rfl
  | tryPop =>
      simp only [step]
      rcases outcome : h.queue.tryPop with ⟨a | _ | _, q⟩
      · exact .taken .pop q rfl rfl (fun _ => rfl) (serves_of_tryPop outcome within)
      · exact .still rfl fun _ => rfl
      · exact .still rfl fun _ => rfl
  | close =>
      simp only [step]
      split
      · exact .still rfl fun _ => rfl
      · next opened => exact .closed (eq_false_of_ne_true opened)
  | start id wish cancellable =>
      let c : Call α := ⟨id, wish, if cancellable then some h.token else none, none⟩
      let begun : Hall α := { h with calls := h.calls ++ [c] }
      rw [step, showCall_hall]
      exact .began c cancellable rfl (looked (h := begun) within c)
  | resume id =>
      simp only [step]
      split
      · next c found =>
          obtain rfl : c.id = id := by simpa using List.find?_some found
          split
          · next runnable =>
              rw [showCall_hall]
              exact .resumed c (List.mem_of_find?_eq_some found) runnable (looked within c)
          · exact .still rfl fun _ => rfl
      · exact .still rfl fun _ => rfl
  | drop id =>
      simp only [step]
      split
      · next c found =>
          obtain rfl : c.id = id := by simpa using List.find?_some found
          exact .dropped c (List.mem_of_find?_eq_some found)
      · exact .still rfl fun _ => rfl
  | cancel | renew => exact .signalled _ _ rfl rfl

theorem Moved.numbers {h h' : Hall α} {s : Step α} {shown : Shown α} (moved : Moved h s shown h') :
    h'.numbers.Sublist (h.numbers ++ s.number?.toList) := by
  cases moved with
  | still | signalled => exact List.sublist_append_left _ _
  | taken | closed =>
      simp only [numbers_ring, numbers_wakeAll]
      exact List.sublist_append_left _ _
  | began c _ _ looked => simpa [Hall.numbers, Step.number?] using looked.numbers
  | resumed _ _ _ looked => exact looked.numbers.trans (List.sublist_append_left _ _)
  | dropped c => exact (numbers_leave h c).trans (List.sublist_append_left _ _)

end Hall

end DecodePipeline.Queue
