import DecodePipeline.Queue.Basic

/-!
Waiting on a queue. A push or pop that cannot go on registers with a bell and sleeps until the bell wakes
it; woken, it looks at the queue again and may have to wait once more. Each bell wakes the call that
registered first, or keeps one ring for the next that comes. A call that was woken and leaves without
looking hands its ring on.
-/

namespace DecodePipeline

namespace Queue

/-- Who waits for a ring, oldest first, and whether a ring is kept for the next to come. -/
structure Bell where
  waiting : List Nat := []
  kept : Bool := false
  deriving Repr, DecidableEq

inductive Wish (α : Type) where
  | push (item : α)
  | pop
  deriving Repr, DecidableEq

/-- How a sleeping call was woken: alone, with a ring it must hand on, or with all others. -/
inductive Wake where
  | one
  | all
  deriving Repr, DecidableEq

/-- A waiting operation that was started and has not ended. -/
structure Call (α : Type) where
  id : Nat
  wish : Wish α
  token : Option Nat
  woken : Option Wake := none
  deriving Repr, DecidableEq

inductive CallResult (α : Type) where
  | pushed
  | refused (item : α)
  | popped (item : α)
  | ended
  | cancelled
  deriving Repr, DecidableEq

/-- A queue with those who wait on it, in the order they started. Tokens are numbered; calls that can be
cancelled are bound to the newest token at their start. -/
structure Hall (α : Type) where
  queue : Queue α
  notFull : Bell := {}
  notEmpty : Bell := {}
  calls : List (Call α) := []
  token : Nat := 0
  fired : List Nat := []
  deriving Repr, DecidableEq

namespace Hall

variable {α : Type}

def markWoken (h : Hall α) (id : Nat) (w : Wake) : Hall α :=
  { h with calls := h.calls.map fun c => if c.id = id then { c with woken := some w } else c }

/-- Wakes the call that waits longest for room, or keeps the ring. -/
def ringNotFull (h : Hall α) : Hall α :=
  match h.notFull.waiting with
  | id :: rest => markWoken { h with notFull := { h.notFull with waiting := rest } } id .one
  | [] => { h with notFull := { h.notFull with kept := true } }

/-- Wakes the call that waits longest for an item, or keeps the ring. -/
def ringNotEmpty (h : Hall α) : Hall α :=
  match h.notEmpty.waiting with
  | id :: rest => markWoken { h with notEmpty := { h.notEmpty with waiting := rest } } id .one
  | [] => { h with notEmpty := { h.notEmpty with kept := true } }

def isFired (h : Hall α) (c : Call α) : Bool :=
  match c.token with
  | some t => h.fired.contains t
  | none => false

/-- A call that would do something if it ran. -/
def isRunnable (h : Hall α) (c : Call α) : Bool :=
  c.woken.isSome || h.isFired c

/-- Takes a call off the list and off the bells. -/
def remove (h : Hall α) (id : Nat) : Hall α :=
  { h with
    calls := h.calls.filter (·.id ≠ id)
    notFull := { h.notFull with waiting := h.notFull.waiting.filter (· ≠ id) }
    notEmpty := { h.notEmpty with waiting := h.notEmpty.waiting.filter (· ≠ id) } }

/-- A call leaves without looking at the queue; a ring that was meant for it alone goes on. -/
def leave (h : Hall α) (c : Call α) : Hall α :=
  let h := h.remove c.id
  match c.woken, c.wish with
  | some .one, .push _ => h.ringNotFull
  | some .one, .pop => h.ringNotEmpty
  | _, _ => h

/-- Puts a call to sleep. It first uses up a kept ring, looks in vain once more, and then registers. -/
def sleep (h : Hall α) (c : Call α) : Hall α :=
  let calls := h.calls.map fun d => if d.id = c.id then { d with woken := none } else d
  match c.wish with
  | .push _ => { h with calls, notFull := { waiting := h.notFull.waiting ++ [c.id], kept := false } }
  | .pop => { h with calls, notEmpty := { waiting := h.notEmpty.waiting ++ [c.id], kept := false } }

/-- A call looks at the queue: it ends, or it goes to sleep. Cancellation is noticed first. -/
def look (h : Hall α) (c : Call α) : Hall α × Option (CallResult α) :=
  if h.isFired c then (h.leave c, some .cancelled)
  else
    match c.wish with
    | .push a =>
      match h.queue.tryPush a with
      | (.accepted, q) =>
        (({ h with queue := q, notFull := { h.notFull with kept := false } }.remove c.id).ringNotEmpty,
          some .pushed)
      | (.closed, _) =>
        ({ h with notFull := { h.notFull with kept := false } }.remove c.id, some (.refused a))
      | (.full, _) => (h.sleep c, none)
    | .pop =>
      match h.queue.tryPop with
      | (.item a, q) =>
        (({ h with queue := q, notEmpty := { h.notEmpty with kept := false } }.remove c.id).ringNotFull,
          some (.popped a))
      | (.closed, _) =>
        ({ h with notEmpty := { h.notEmpty with kept := false } }.remove c.id, some .ended)
      | (.empty, _) => (h.sleep c, none)

/-- What users do to a queue. A start carries a number of its own. -/
inductive Step (α : Type) where
  | tryPush (item : α)
  | tryPop
  | close
  | start (id : Nat) (wish : Wish α) (cancellable : Bool)
  | resume (id : Nat)
  | drop (id : Nat)
  | cancel
  | renew
  deriving Repr, DecidableEq

/-- What a step shows at once. -/
inductive Shown (α : Type) where
  | nothing
  | pushed (outcome : PushOutcome)
  | popped (outcome : PopOutcome α)
  | call (id : Nat) (result : CallResult α)
  deriving Repr, DecidableEq

def wakeAll (h : Hall α) : Hall α :=
  let asleep := h.notFull.waiting ++ h.notEmpty.waiting
  { h with
    calls := h.calls.map fun c => if asleep.contains c.id then { c with woken := some .all } else c
    notFull := { h.notFull with waiting := [] }
    notEmpty := { h.notEmpty with waiting := [] } }

def showCall (id : Nat) : Hall α × Option (CallResult α) → Shown α × Hall α
  | (h, some result) => (.call id result, h)
  | (h, none) => (.nothing, h)

def step (h : Hall α) : Step α → Shown α × Hall α
  | .tryPush a =>
    match h.queue.tryPush a with
    | (.accepted, q) => (.pushed .accepted, { h with queue := q }.ringNotEmpty)
    | (outcome, _) => (.pushed outcome, h)
  | .tryPop =>
    match h.queue.tryPop with
    | (.item a, q) => (.popped (.item a), { h with queue := q }.ringNotFull)
    | (outcome, _) => (.popped outcome, h)
  | .close =>
    (.nothing, if h.queue.closed then h else { h with queue := h.queue.close }.wakeAll)
  | .start id wish cancellable =>
    let c : Call α := ⟨id, wish, if cancellable then some h.token else none, none⟩
    showCall id ({ h with calls := h.calls ++ [c] }.look c)
  | .resume id =>
    match h.calls.find? (·.id = id) with
    | some c => if h.isRunnable c then showCall id (h.look c) else (.nothing, h)
    | none => (.nothing, h)
  | .drop id =>
    match h.calls.find? (·.id = id) with
    | some c => (.nothing, h.leave c)
    | none => (.nothing, h)
  | .cancel => (.nothing, { h with fired := h.token :: h.fired })
  | .renew => (.nothing, { h with token := h.token + 1 })

/-- Lets the longest-started runnable call run, again and again, and lists how calls ended. -/
def settle : Nat → Hall α → List (Nat × CallResult α) × Hall α
  | 0, h => ([], h)
  | fuel + 1, h =>
    match h.calls.find? h.isRunnable with
    | none => ([], h)
    | some c =>
      let (result, h) := h.look c |> fun (h, r) => (r, h)
      let (more, h) := settle fuel h
      (match result with
        | some r => (c.id, r) :: more
        | none => more, h)

/-- Enough rounds for every call to end or to go back to sleep. -/
def settleAll (h : Hall α) : List (Nat × CallResult α) × Hall α :=
  settle (2 * h.calls.length * h.calls.length + 2) h

end Hall

end Queue

end DecodePipeline
