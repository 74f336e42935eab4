import DecodePipeline.Fault

/-!
Queues of bounded capacity that can be closed: the steps that never wait. A closed queue takes nothing
more and gives out what it still holds.
-/

namespace DecodePipeline

structure Queue (α : Type) where
  capacity : Nat
  buffer : List α := []
  closed : Bool := false
  deriving Repr, DecidableEq

inductive PushOutcome where
  | accepted
  | full
  | closed
  deriving Repr, DecidableEq

inductive PopOutcome (α : Type) where
  | item (a : α)
  | empty
  | closed
  deriving Repr, DecidableEq

namespace Queue

variable {α : Type}

def make? (capacity : Nat) : Except Fault (Queue α) :=
  if capacity = 0 then .error (.config "queue capacity must be positive") else .ok { capacity }

def size (q : Queue α) : Nat := q.buffer.length

def isEmpty (q : Queue α) : Bool := q.buffer.isEmpty

/-- Appends an item unless the queue is closed or full; being closed is noticed first. -/
def tryPush (q : Queue α) (a : α) : PushOutcome × Queue α :=
  if q.closed then (.closed, q)
  else if q.capacity ≤ q.buffer.length then (.full, q)
  else (.accepted, { q with buffer := q.buffer ++ [a] })

/-- Takes the oldest item, also from a closed queue. -/
def tryPop (q : Queue α) : PopOutcome α × Queue α :=
  match q.buffer with
  | a :: rest => (.item a, { q with buffer := rest })
  | [] => (if q.closed then .closed else .empty, q)

def close (q : Queue α) : Queue α := { q with closed := true }

def describe (q : Queue α) : String :=
  "BoundedQueue \x7b capacity: " ++ toString q.capacity ++ ", len: " ++ toString q.size ++
    ", closed: " ++ toString q.closed ++ " \x7d"

end Queue

end DecodePipeline
