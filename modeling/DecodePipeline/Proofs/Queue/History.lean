import DecodePipeline.Queue.Waiting
import Mathlib.Data.List.Basic
import Mathlib.Data.List.Perm.Subperm

/-!
Whole histories of a queue. A record keeps, beside the hall, the items that were offered,
those whose push reported success, those whose push failed or was given up, and those that
were popped, each in its order. However the steps of all users are mixed, the accepted items
are the popped ones followed by the buffer, the buffer keeps within its capacity, and what
was refused is neither buffered nor popped.
-/

namespace DecodePipeline.Queue

variable {α : Type}

/-- How one step changes a queue that takes in `ins` and gives out `outs`: at most one item
moves, at the right end, and a closed queue takes in nothing and stays closed. -/
inductive Effect (q q' : Queue α) : List α → List α → Prop where
  | none : q'.capacity = q.capacity → q'.buffer = q.buffer → (q.closed → q'.closed) →
      Effect q q' [] []
  | push (a : α) : q.closed = false → q.buffer.length < q.capacity →
      q' = { q with buffer := q.buffer ++ [a] } → Effect q q' [a] []
  | pop (a : α) : q.buffer = a :: q'.buffer → q'.capacity = q.capacity → q'.closed = q.closed →
      Effect q q' [] [a]

theorem effect_of_tryPush {q q' : Queue α} {a : α} (h : q.tryPush a = (.accepted, q')) :
    Effect q q' [a] [] := by
  unfold tryPush at h
  split at h
  · simp at h
  · next opened =>
      split at h
      · simp at h
      · next room =>
          simp only [Prod.mk.injEq, true_and] at h
          exact .push a (by simpa using opened) (by omega) h.symm

theorem effect_of_tryPop {q q' : Queue α} {a : α} (h : q.tryPop = (.item a, q')) :
    Effect q q' [] [a] := by
  unfold tryPop at h
  split at h
  · next b rest buffer =>
      simp only [Prod.mk.injEq, PopOutcome.item.injEq] at h
      obtain ⟨rfl, rfl⟩ := h
      exact .pop b buffer rfl rfl
  · simp only [Prod.mk.injEq] at h
    split at h <;> simp at h

theorem Effect.refl (q : Queue α) : Effect q q [] [] := .none rfl rfl id

theorem Effect.capacity {q q' : Queue α} {ins outs : List α} (h : Effect q q' ins outs) :
    q'.capacity = q.capacity := by
  cases h with
  | none same _ _ => exact same
  | push a _ _ eq => rw [eq]
  | pop a _ same _ => exact same

theorem Effect.size_le {q q' : Queue α} {ins outs : List α} (h : Effect q q' ins outs)
    (bound : q.size ≤ q.capacity) : q'.size ≤ q'.capacity := by
  rw [h.capacity]
  simp only [size] at *
  cases h with
  | none _ same _ => rwa [same]
  | push a _ room eq => subst eq; simp only [List.length_append, List.length_singleton]; omega
  | pop a buffer _ _ => rw [buffer, List.length_cons] at bound; omega

/-- What was taken in before and what is taken in now leave in the same order. -/
theorem Effect.fifo {q q' : Queue α} {ins outs accepted popped : List α}
    (h : Effect q q' ins outs) (fifo : accepted = popped ++ q.buffer) :
    accepted ++ ins = popped ++ outs ++ q'.buffer := by
  cases h with
  | none _ same _ => rw [same]; simpa using fifo
  | push a _ _ eq => subst eq; simp [fifo]
  | pop a buffer _ _ => rw [fifo, buffer]; simp

theorem Effect.closed {q q' : Queue α} {ins outs : List α} (h : Effect q q' ins outs)
    (closed : q.closed) : q'.closed ∧ ins = [] := by
  cases h with
  | none _ _ stays => exact ⟨stays closed, rfl⟩
  | push a opened _ _ => rw [closed] at opened; contradiction
  | pop a _ _ same => exact ⟨same ▸ closed, rfl⟩

def Call.offer? (c : Call α) : Option α :=
  match c.wish with
  | .push a => some a
  | .pop => none

namespace Hall

/-- The items of the pushes that are still waiting. -/
def pending (h : Hall α) : List α := h.calls.filterMap Call.offer?

@[simp] theorem markWoken_queue (h : Hall α) (id : Nat) (w : Wake) :
    (h.markWoken id w).queue = h.queue := rfl

@[simp] theorem markWoken_pending (h : Hall α) (id : Nat) (w : Wake) :
    (h.markWoken id w).pending = h.pending := by
  simp only [pending, markWoken, List.filterMap_map]
  congr 1
  funext c
  by_cases hc : c.id = id <;> simp [hc, Call.offer?]

@[simp] theorem ringNotFull_queue (h : Hall α) : h.ringNotFull.queue = h.queue := by
  simp only [ringNotFull]
  split <;> rfl

@[simp] theorem ringNotFull_pending (h : Hall α) : h.ringNotFull.pending = h.pending := by
  simp only [ringNotFull]
  split
  · exact markWoken_pending _ _ _
  · rfl

@[simp] theorem ringNotEmpty_queue (h : Hall α) : h.ringNotEmpty.queue = h.queue := by
  simp only [ringNotEmpty]
  split <;> rfl

@[simp] theorem ringNotEmpty_pending (h : Hall α) : h.ringNotEmpty.pending = h.pending := by
  simp only [ringNotEmpty]
  split
  · exact markWoken_pending _ _ _
  · rfl

@[simp] theorem wakeAll_queue (h : Hall α) : h.wakeAll.queue = h.queue := rfl

@[simp] theorem wakeAll_pending (h : Hall α) : h.wakeAll.pending = h.pending := by
  simp only [pending, wakeAll, List.filterMap_map]
  congr 1
  funext c
  simp only [Function.comp_apply]
  split <;> rfl

@[simp] theorem remove_queue (h : Hall α) (id : Nat) : (h.remove id).queue = h.queue := rfl

@[simp] theorem leave_queue (h : Hall α) (c : Call α) : (h.leave c).queue = h.queue := by
  unfold leave
  simp only
  split <;> simp

@[simp] theorem leave_pending (h : Hall α) (c : Call α) :
    (h.leave c).pending = (h.remove c.id).pending := by
  unfold leave
  simp only
  split <;> simp

@[simp] theorem sleep_queue (h : Hall α) (c : Call α) : (h.sleep c).queue = h.queue := by
  unfold sleep
  simp only
  split <;> rfl

@[simp] theorem sleep_pending (h : Hall α) (c : Call α) : (h.sleep c).pending = h.pending := by
  have same (calls : List (Call α)) :
      (calls.map fun d => if d.id = c.id then { d with woken := none } else d).filterMap
        Call.offer? = calls.filterMap Call.offer? := by
    rw [List.filterMap_map]
    congr 1
    funext d
    by_cases hd : d.id = c.id <;> simp [hd, Call.offer?]
  unfold sleep
  simp only
  split <;> exact same h.calls

/-- A call that goes takes its own item out of those that wait. -/
theorem pending_remove {h : Hall α} {c : Call α} (member : c ∈ h.calls) :
    (c.offer?.toList ++ (h.remove c.id).pending).Subperm h.pending := by
  simp only [pending, remove]
  generalize h.calls = calls at member
  have rest_le (cs : List (Call α)) :
      ((cs.filter (·.id ≠ c.id)).filterMap Call.offer?).Subperm (cs.filterMap Call.offer?) :=
    (List.filter_sublist.filterMap _).subperm
  induction calls with
  | nil => simp at member
  | cons d calls ih =>
      by_cases same : d = c
      · subst same
        simp only [ne_eq, not_true_eq_false, decide_false, Bool.false_eq_true, not_false_eq_true,
          List.filter_cons_of_neg]
        cases hd : d.offer? with
        | none => simpa [List.filterMap_cons, hd] using rest_le calls
        | some a => simpa [List.filterMap_cons, hd] using (List.subperm_cons a).mpr (rest_le calls)
      · have later := ih ((List.mem_cons.mp member).resolve_left (Ne.symm same))
        have grows : (calls.filterMap Call.offer?).Subperm ((d :: calls).filterMap Call.offer?) :=
          ((List.sublist_cons_self d calls).filterMap _).subperm
        by_cases hid : d.id = c.id
        · simpa [hid] using later.trans grows
        · cases hd : d.offer? with
          | none => simpa [hid, List.filterMap_cons, hd] using later
          | some a =>
              simp only [ne_eq, hid, not_false_eq_true, decide_true, List.filter_cons_of_pos,
                List.filterMap_cons, hd]
              exact List.perm_middle.subperm.trans ((List.subperm_cons a).mpr later)

/-- What a call that looks at the queue puts in, by how it ends. -/
def takenIn (c : Call α) : Option (CallResult α) → List α
  | some .pushed => c.offer?.toList
  | _ => []

def givenOut : Option (CallResult α) → List α
  | some (.popped a) => [a]
  | _ => []

/-- The item of a push that ends without success. -/
def refusedOf (c : Call α) : Option (CallResult α) → List α
  | some (.refused _) | some .cancelled => c.offer?.toList
  | _ => []

theorem look_spec {h : Hall α} {c : Call α} (member : c ∈ h.calls) :
    Effect h.queue (h.look c).1.queue (takenIn c (h.look c).2) (givenOut (h.look c).2) ∧
      (takenIn c (h.look c).2 ++ refusedOf c (h.look c).2 ++ (h.look c).1.pending).Subperm
        h.pending := by
  have gone := pending_remove member
  have fewer : (h.remove c.id).pending.Subperm h.pending :=
    (List.sublist_append_right _ _).subperm.trans gone
  simp only [look]
  split
  · exact ⟨by simpa [takenIn, givenOut] using .refl _, by simpa [takenIn, refusedOf] using gone⟩
  · split
    · next a wish =>
        have offer : c.offer? = some a := by simp [Call.offer?, wish]
        rw [offer] at gone
        split
        · next q accepted =>
            refine ⟨?_, ?_⟩
            · simpa [takenIn, givenOut, offer] using effect_of_tryPush accepted
            · rw [ringNotEmpty_pending]
              simpa [takenIn, refusedOf, offer, remove, pending] using gone
        · refine ⟨by simpa [takenIn, givenOut] using .refl _, ?_⟩
          simpa [takenIn, refusedOf, offer, remove, pending] using gone
        · exact ⟨by simpa [takenIn, givenOut] using .refl _,
            by simpa [takenIn, refusedOf] using List.Subperm.refl _⟩
    · split
      · next a q taken =>
          refine ⟨by simpa [takenIn, givenOut] using effect_of_tryPop taken, ?_⟩
          rw [ringNotFull_pending]
          simpa [takenIn, refusedOf, remove, pending] using fewer
      · refine ⟨by simpa [takenIn, givenOut] using .refl _, ?_⟩
        simpa [takenIn, refusedOf, remove, pending] using fewer
      · exact ⟨by simpa [takenIn, givenOut] using .refl _,
          by simpa [takenIn, refusedOf] using List.Subperm.refl _⟩

def Step.offered : Step α → List α
  | .tryPush a | .start _ (.push a) _ => [a]
  | _ => []

/-- The item whose push a step decides on, if the step decides on one. -/
def decided (h : Hall α) : Step α → List α
  | .tryPush a | .start _ (.push a) _ => [a]
  | .resume id | .drop id => ((h.calls.find? (·.id = id)).bind Call.offer?).toList
  | _ => []

def Shown.isSuccess : Shown α → Bool
  | .pushed .accepted | .call _ .pushed => true
  | _ => false

def Shown.isFailure : Shown α → Bool
  | .pushed .full | .pushed .closed | .call _ (.refused _) | .call _ .cancelled => true
  | _ => false

def Shown.taken : Shown α → List α
  | .popped (.item a) | .call _ (.popped a) => [a]
  | _ => []

def Step.isDrop : Step α → Bool
  | .drop _ => true
  | _ => false

theorem showCall_spec (id : Nat) (c : Call α) (out : Hall α × Option (CallResult α)) :
    (showCall id out).2 = out.1 ∧
      (if (showCall id out).1.isSuccess then c.offer?.toList else []) = takenIn c out.2 ∧
      (if (showCall id out).1.isFailure then c.offer?.toList else []) = refusedOf c out.2 ∧
      (showCall id out).1.taken = givenOut out.2 := by
  obtain ⟨h, result⟩ := out
  obtain _ | result := result
  · simp [showCall, Shown.isSuccess, Shown.isFailure, Shown.taken, takenIn, refusedOf, givenOut]
  · cases result <;>
      simp [showCall, Shown.isSuccess, Shown.isFailure, Shown.taken, takenIn, refusedOf, givenOut]

/-- What one step of any user does: the queue changes as the answer says, and an item that
is offered is accepted, refused or kept waiting, and not two of these. -/
def Accounts (h : Hall α) (s : Step α) : Prop :=
  Effect h.queue (h.step s).2.queue
      (if (h.step s).1.isSuccess then h.decided s else []) (h.step s).1.taken ∧
    ((if (h.step s).1.isSuccess then h.decided s else []) ++
        (if (h.step s).1.isFailure || s.isDrop then h.decided s else []) ++
        (h.step s).2.pending).Subperm (h.pending ++ s.offered)

theorem accounts_tryPush (h : Hall α) (a : α) : h.Accounts (.tryPush a) := by
  cases outcome : h.queue.tryPush a with
  | mk out q =>
      cases out with
      | accepted =>
          simp only [Accounts, step, outcome, decided, Step.offered, Step.isDrop, Shown.isSuccess,
            Shown.isFailure, Shown.taken, ringNotEmpty_queue, ringNotEmpty_pending]
          exact ⟨effect_of_tryPush outcome, List.perm_append_comm.subperm⟩
      | full | closed =>
          simp only [Accounts, step, outcome, decided, Step.offered, Step.isDrop, Shown.isSuccess,
            Shown.isFailure, Shown.taken]
          exact ⟨.refl _, List.perm_append_comm.subperm⟩

theorem accounts_tryPop (h : Hall α) : h.Accounts .tryPop := by
  cases outcome : h.queue.tryPop with
  | mk out q =>
      cases out with
      | item a =>
          simp only [Accounts, step, outcome, decided, Step.offered, Shown.taken, ite_self,
            ringNotFull_queue, ringNotFull_pending, List.append_nil, List.nil_append]
          exact ⟨effect_of_tryPop outcome, .refl _⟩
      | empty | closed =>
          simp only [Accounts, step, outcome, decided, Step.offered, Shown.taken, ite_self,
            List.append_nil, List.nil_append]
          exact ⟨.refl _, .refl _⟩

theorem accounts_close (h : Hall α) : h.Accounts .close := by
  simp only [Accounts, step, decided, Step.offered, Shown.taken, List.append_nil]
  split
  · exact ⟨.refl _, .refl _⟩
  · rw [wakeAll_pending]
    exact ⟨.none rfl rfl fun _ => rfl, .refl _⟩

theorem accounts_start (h : Hall α) (id : Nat) (wish : Wish α) (cancellable : Bool) :
    h.Accounts (.start id wish cancellable) := by
  let c : Call α := ⟨id, wish, if cancellable then some h.token else none, none⟩
  let begun : Hall α := { h with calls := h.calls ++ [c] }
  have member : c ∈ begun.calls := by simp [begun]
  have looked := look_spec member
  have shown := showCall_spec id c (begun.look c)
  have offers : h.decided (.start id wish cancellable) = c.offer?.toList := by
    cases wish <;> rfl
  have waits : begun.pending = h.pending ++ Step.offered (.start id wish cancellable) := by
    cases wish <;> simp [begun, c, pending, Call.offer?, Step.offered]
  rw [waits] at looked
  simp only [Accounts, step, offers, Step.isDrop, Bool.or_false]
  rw [shown.1, shown.2.1, shown.2.2.1, shown.2.2.2]
  exact looked

theorem accounts_resume (h : Hall α) (id : Nat) : h.Accounts (.resume id) := by
  cases found : h.calls.find? (·.id = id) with
  | none =>
      simp only [Accounts, step, found, Shown.isSuccess, Shown.isFailure, Shown.taken,
        Step.offered, Step.isDrop, List.append_nil]
      exact ⟨.refl _, .refl _⟩
  | some c =>
      have looked := look_spec (List.mem_of_find?_eq_some found)
      have shown := showCall_spec id c (h.look c)
      simp only [Accounts, step, found, decided, Option.bind_some, Step.offered, Step.isDrop,
        List.append_nil, Bool.or_false]
      split
      · rw [shown.1, shown.2.1, shown.2.2.1, shown.2.2.2]
        exact looked
      · exact ⟨.refl _, .refl _⟩

theorem accounts_drop (h : Hall α) (id : Nat) : h.Accounts (.drop id) := by
  cases found : h.calls.find? (·.id = id) with
  | none =>
      simp only [Accounts, step, found, decided, Option.bind_none, Option.toList, Shown.taken,
        ite_self, Step.offered, List.append_nil, List.nil_append]
      exact ⟨.refl _, .refl _⟩
  | some c =>
      simp only [Accounts, step, found, decided, Option.bind_some, Shown.isSuccess,
        Shown.isFailure, Shown.taken, Step.offered, Step.isDrop, Bool.or_true, if_true,
        List.append_nil, leave_queue, leave_pending]
      exact ⟨.refl _, pending_remove (List.mem_of_find?_eq_some found)⟩

theorem step_spec (h : Hall α) (s : Step α) : h.Accounts s := by
  cases s with
  | tryPush a => exact h.accounts_tryPush a
  | tryPop => exact h.accounts_tryPop
  | close => exact h.accounts_close
  | start id wish cancellable => exact h.accounts_start id wish cancellable
  | resume id => exact h.accounts_resume id
  | drop id => exact h.accounts_drop id
  | cancel | renew =>
      simp only [Accounts, step, decided, Step.offered, Shown.taken, List.append_nil]
      exact ⟨.none rfl rfl id, .refl _⟩

/-- What a closed queue has for a call that looks at it: a push is refused, and a pop gets the oldest
item, or else the end of the stream. -/
def closedAnswer (h : Hall α) : Wish α → CallResult α
  | .push a => .refused a
  | .pop =>
    match h.queue.buffer with
    | a :: _ => .popped a
    | [] => .ended

/-- A hall whose queue is closed, by what it answers: no push succeeds, and pops empty the buffer. -/
structure Shut (h : Hall α) : Prop where
  closed : h.queue.closed
  no_push : ∀ s, (h.step s).1.isSuccess = false
  tryPush : ∀ a, (h.step (.tryPush a)).1 = .pushed .closed
  tryPop : (h.step .tryPop).1 =
    .popped (match h.queue.buffer with | a :: _ => .item a | [] => .closed)
  start : ∀ id wish cancellable, (cancellable = true → h.token ∉ h.fired) →
    (h.step (.start id wish cancellable)).1 = .call id (h.closedAnswer wish)
  resume : ∀ id c, h.calls.find? (·.id = id) = some c → c.woken.isSome → h.isFired c = false →
    (h.step (.resume id)).1 = .call id (h.closedAnswer c.wish)

theorem look_of_closed {h : Hall α} {c : Call α} (closed : h.queue.closed)
    (live : h.isFired c = false) : (h.look c).2 = some (h.closedAnswer c.wish) := by
  cases wish : c.wish with
  | push a => simp [look, live, wish, tryPush, closed, closedAnswer]
  | pop =>
      cases buffer : h.queue.buffer <;>
        simp [look, live, wish, tryPop, buffer, closed, closedAnswer]

theorem look_ne_pushed_of_closed {h : Hall α} (closed : h.queue.closed) (c : Call α) :
    (h.look c).2 ≠ some .pushed := by
  by_cases fired : h.isFired c
  · simp [look, fired]
  · rw [look_of_closed closed (by simpa using fired)]
    cases c.wish with
    | push a => simp [closedAnswer]
    | pop => cases buffer : h.queue.buffer <;> simp [closedAnswer, buffer]

theorem showCall_of_look {h : Hall α} {c : Call α} {result : CallResult α} (id : Nat)
    (looked : (h.look c).2 = some result) : (showCall id (h.look c)).1 = .call id result := by
  cases eq : h.look c with
  | mk after found =>
      rw [eq] at looked
      subst looked
      rfl

theorem showCall_not_isSuccess {h : Hall α} {c : Call α} (id : Nat)
    (closed : h.queue.closed) : (showCall id (h.look c)).1.isSuccess = false := by
  have unpushed := look_ne_pushed_of_closed closed c
  cases looked : (h.look c).2 with
  | none =>
      cases eq : h.look c with
      | mk after found =>
          rw [eq] at looked
          subst looked
          rfl
  | some result =>
      rw [showCall_of_look id looked]
      rw [looked] at unpushed
      cases result with
      | pushed => exact absurd rfl unpushed
      | refused | popped | ended | cancelled => rfl

theorem not_isSuccess_of_closed {h : Hall α} (closed : h.queue.closed) (s : Step α) :
    (h.step s).1.isSuccess = false := by
  cases s with
  | tryPush a => simp [step, tryPush, closed, Shown.isSuccess]
  | tryPop =>
      cases buffer : h.queue.buffer <;> simp [step, tryPop, buffer, closed, Shown.isSuccess]
  | start id wish cancellable => exact showCall_not_isSuccess id closed
  | resume id =>
      simp only [step]
      split
      · split
        · exact showCall_not_isSuccess id closed
        · rfl
      · rfl
  | drop id =>
      simp only [step]
      split <;> rfl
  | close | cancel | renew => rfl

theorem start_of_closed {h : Hall α} (closed : h.queue.closed) (id : Nat) (wish : Wish α)
    {cancellable : Bool} (live : cancellable → h.token ∉ h.fired) :
    (h.step (.start id wish cancellable)).1 = .call id (h.closedAnswer wish) := by
  let c : Call α := ⟨id, wish, if cancellable then some h.token else none, none⟩
  let begun : Hall α := { h with calls := h.calls ++ [c] }
  have unfired : begun.isFired c = false := by
    cases cancellable with
    | false => rfl
    | true => simpa [begun, c, isFired] using live rfl
  have answer : (begun.look c).2 = some (begun.closedAnswer wish) := look_of_closed closed unfired
  exact showCall_of_look id answer

theorem resume_of_closed {h : Hall α} (closed : h.queue.closed) {id : Nat} {c : Call α}
    (found : h.calls.find? (·.id = id) = some c) (woken : c.woken.isSome)
    (live : h.isFired c = false) :
    (h.step (.resume id)).1 = .call id (h.closedAnswer c.wish) := by
  simp only [step, found, isRunnable, woken, Bool.true_or, if_true]
  exact showCall_of_look id (look_of_closed closed live)

theorem shut_of_closed {h : Hall α} (closed : h.queue.closed) : h.Shut where
  closed := closed
  no_push := not_isSuccess_of_closed closed
  tryPush a := by simp [step, tryPush, closed]
  tryPop := by cases buffer : h.queue.buffer <;> simp [step, tryPop, buffer, closed]
  start id wish _ live := start_of_closed closed id wish live
  resume _ _ found woken live := resume_of_closed closed found woken live

theorem step_close_closed (h : Hall α) : (h.step .close).2.queue.closed := by
  by_cases closed : h.queue.closed
  · simp [step, closed]
  · simp [step, closed, close]

theorem step_close_buffer (h : Hall α) : (h.step .close).2.queue.buffer = h.queue.buffer := by
  by_cases closed : h.queue.closed
  · simp [step, closed]
  · simp [step, closed, close]

/-- An operation that fails or is dropped moves no item. -/
theorem buffer_of_failure {h : Hall α} {s : Step α}
    (failed : (h.step s).1.isFailure ∨ s.isDrop) :
    (h.step s).2.queue.buffer = h.queue.buffer := by
  have effect := (step_spec h s).1
  have still : (h.step s).1.isSuccess = false ∧ (h.step s).1.taken = [] := by
    obtain failed | dropped := failed
    · revert failed
      cases (h.step s).1 with
      | nothing => simp [Shown.isFailure]
      | pushed out => cases out <;> simp [Shown.isFailure, Shown.isSuccess, Shown.taken]
      | popped out => cases out <;> simp [Shown.isFailure]
      | call id result => cases result <;> simp [Shown.isFailure, Shown.isSuccess, Shown.taken]
    · cases s with
      | drop id => simp only [step]; split <;> exact ⟨rfl, rfl⟩
      | tryPush _ | tryPop | close | start _ _ _ | resume _ | cancel | renew =>
          simp [Step.isDrop] at dropped
  rw [still.1, still.2] at effect
  cases effect with
  | none _ same _ => exact same

theorem close_close (h : Hall α) : ((h.step .close).2.step .close).2 = (h.step .close).2 := by
  by_cases closed : h.queue.closed
  · simp [step, closed]
  · simp [step, closed, close]

end Hall

/-- A hall with its past. -/
structure Record (α : Type) where
  hall : Hall α
  offered : List α := []
  accepted : List α := []
  refused : List α := []
  popped : List α := []

namespace Record

open Hall

def new (q : Queue α) : Record α := { hall := { queue := q } }

def step (t : Record α) (s : Step α) : Record α :=
  let (shown, hall) := t.hall.step s
  let decided := t.hall.decided s
  { hall
    offered := t.offered ++ s.offered
    accepted := t.accepted ++ if shown.isSuccess then decided else []
    refused := t.refused ++ if shown.isFailure || s.isDrop then decided else []
    popped := t.popped ++ shown.taken }

def run (t : Record α) (steps : List (Step α)) : Record α := steps.foldl step t

/-- The invariant of all histories. -/
structure Kept (capacity : Nat) (t : Record α) : Prop where
  room : t.hall.queue.capacity = capacity
  size_le : t.hall.queue.size ≤ capacity
  fifo : t.accepted = t.popped ++ t.hall.queue.buffer
  apart : (t.accepted ++ t.refused ++ t.hall.pending).Subperm t.offered

theorem kept_new (q : Queue α) (empty : q.buffer = []) : (new q).Kept q.capacity :=
  ⟨rfl, by simp [new, size, empty], by simp [new, empty], by simp [new, pending]⟩

theorem Kept.step {capacity : Nat} {t : Record α} (kept : t.Kept capacity) (s : Step α) :
    (t.step s).Kept capacity := by
  obtain ⟨effect, apart⟩ := step_spec t.hall s
  have same : (t.step s).hall.queue.capacity = capacity := effect.capacity.trans kept.room
  refine ⟨same, ?_, effect.fifo kept.fifo, ?_⟩
  · rw [← same]
    exact effect.size_le (by rw [kept.room]; exact kept.size_le)
  · -- the item that the step decides on moves from those waiting to those accepted or refused
    have moved := ((List.subperm_append_left (t.accepted ++ t.refused)).mpr apart).trans
      (List.append_assoc .. ▸ (List.subperm_append_right s.offered).mpr kept.apart)
    refine List.Subperm.trans (List.Perm.subperm ?_) moved
    simp only [Record.step, List.append_assoc]
    exact (List.perm_append_comm_assoc _ _ _).append_left _

theorem Kept.run {capacity : Nat} {t : Record α} (kept : t.Kept capacity) (steps : List (Step α)) :
    (t.run steps).Kept capacity := by
  induction steps generalizing t with
  | nil => exact kept
  | cons s steps ih => exact ih (kept.step s)

/-- A later state of a queue that was closed with this past: nothing more was accepted, and what was
popped since is the front of the buffer that it was closed with. -/
structure Ended (t u : Record α) : Prop where
  accepted : u.accepted = t.accepted
  drained : ∃ out, u.popped = t.popped ++ out ∧
    t.hall.queue.buffer = out ++ u.hall.queue.buffer
  shut : u.hall.Shut

theorem ended_run {t : Record α} (closed : t.hall.queue.closed) (more : List (Step α)) :
    Ended t (t.run more) := by
  induction more generalizing t with
  | nil => exact ⟨rfl, ⟨[], by simp [run], by simp [run]⟩, shut_of_closed closed⟩
  | cons s more ih =>
      have effect := (step_spec t.hall s).1
      obtain ⟨still, nothing⟩ := effect.closed closed
      obtain ⟨accepted, ⟨out, popped, buffer⟩, shut⟩ := ih (t := t.step s) still
      refine ⟨?_, ⟨(t.hall.step s).1.taken ++ out, ?_, ?_⟩, shut⟩
      · exact accepted.trans (by simp only [step, nothing, List.append_nil])
      · exact popped.trans (by simp only [step, List.append_assoc])
      · have now := effect.fifo (List.nil_append t.hall.queue.buffer).symm
        rw [nothing, List.append_nil, List.nil_append] at now
        rw [now, List.append_assoc]
        exact congrArg _ buffer

theorem ended_close (t : Record α) (more : List (Step α)) :
    Ended t ((t.step .close).run more) := by
  obtain ⟨accepted, ⟨out, popped, buffer⟩, shut⟩ :=
    ended_run (t := t.step .close) (step_close_closed t.hall) more
  have nothing : (t.step .close).accepted = t.accepted ∧ (t.step .close).popped = t.popped := by
    simp [step, Hall.step, Shown.isSuccess, Shown.taken]
  rw [nothing.1] at accepted
  rw [nothing.2] at popped
  exact ⟨accepted, ⟨out, popped, (step_close_buffer t.hall).symm.trans buffer⟩, shut⟩

theorem close_close (t : Record α) : (t.step .close).step .close = t.step .close := by
  have hall : ((t.hall.step .close).2.step .close).2 = (t.hall.step .close).2 := Hall.close_close _
  simp only [step, hall, Step.offered, List.append_nil]
  simp [Hall.step, Shown.isSuccess, Shown.isFailure, Shown.taken, Step.isDrop]

/-- What the users of a queue can rely on at any point of any history. -/
structure Safe (capacity : Nat) (t : Record α) : Prop where
  size_le : t.hall.queue.size ≤ capacity
  fifo : t.accepted = t.popped ++ t.hall.queue.buffer
  one_place :
    (t.popped ++ t.hall.queue.buffer ++ t.refused ++ t.hall.pending).Subperm t.offered
  refused_gone : t.offered.Nodup → ∀ a ∈ t.refused, a ∉ t.hall.queue.buffer ∧ a ∉ t.popped
  failure_keeps : ∀ s, (t.hall.step s).1.isFailure ∨ s.isDrop →
    (t.step s).hall.queue.buffer = t.hall.queue.buffer
  closed_ends : t.hall.queue.closed → ∀ more, Ended t (t.run more)
  close_closes : (t.step .close).hall.queue.closed
  close_ends : ∀ more, Ended t ((t.step .close).run more)
  close_idempotent : (t.step .close).step .close = t.step .close

theorem Kept.refused_gone {capacity : Nat} {t : Record α} (kept : t.Kept capacity)
    (distinct : t.offered.Nodup) (a : α) (refused : a ∈ t.refused) :
    a ∉ t.hall.queue.buffer ∧ a ∉ t.popped := by
  have once : (t.accepted ++ t.refused ++ t.hall.pending).Nodup := by
    obtain ⟨l, perm, sub⟩ := kept.apart
    exact perm.nodup_iff.mp (distinct.sublist sub)
  rw [kept.fifo] at once
  simp only [List.nodup_append, List.mem_append] at once
  constructor
  · intro buffered
    exact once.1.2.2 a (.inr buffered) a refused rfl
  · intro popped
    exact once.1.2.2 a (.inl popped) a refused rfl

theorem Kept.safe {capacity : Nat} {t : Record α} (kept : t.Kept capacity) : t.Safe capacity where
  size_le := kept.size_le
  fifo := kept.fifo
  one_place := kept.fifo ▸ kept.apart
  refused_gone := kept.refused_gone
  failure_keeps _ := buffer_of_failure
  closed_ends := ended_run
  close_closes := Hall.step_close_closed t.hall
  close_ends := ended_close t
  close_idempotent := close_close t

end Record

/-- Whatever its users do and in whatever order, a queue is a bounded buffer that loses
nothing, repeats nothing and keeps the order, also while operations wait, fail, are
cancelled or are dropped. -/
theorem queue_history_safe {q : Queue α} {capacity : Nat} (made : Queue.make? capacity = .ok q)
    (steps : List (Hall.Step α)) : ((Record.new q).run steps).Safe capacity := by
  unfold make? at made
  split at made
  · contradiction
  · obtain rfl : _ = q := Except.ok.inj made
    exact ((Record.kept_new { capacity } rfl).run steps).safe

/-- A push waits for the one slot, is cancelled while an item leaves, and its item is gone. What is
buffered when the queue is closed is popped after that, and what is offered then is refused. -/
theorem queue_history_safe_cancelled_push :
    let q : Queue Nat := { capacity := 1 }
    let steps : List (Hall.Step Nat) :=
      [.tryPush 7, .start 0 (.push 8) true, .cancel, .tryPop, .resume 0, .tryPush 5]
    let ending : List (Hall.Step Nat) := [.tryPush 9, .tryPop]
    let t := (Record.new q).run steps
    let u := (t.step .close).run ending
    Queue.make? 1 = .ok q ∧ t.Safe 1 ∧ t.refused = [8] ∧ t.hall.queue.buffer = [5] ∧
      t.Ended u ∧ u.refused = [8, 9] ∧ u.popped = [7, 5] := by
  intro q steps ending t u
  have safe : t.Safe 1 := queue_history_safe rfl steps
  exact ⟨rfl, safe, by decide, by decide, safe.close_ends ending, by decide, by decide⟩

end DecodePipeline.Queue
