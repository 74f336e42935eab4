import DecodePipeline.Queue.Basic

/-!
The steps on a queue that never wait, by the state they meet: closed, full, with room; with
items, empty.
-/

namespace DecodePipeline.Queue

variable {α : Type} {q : Queue α}

theorem tryPush_of_closed (closed : q.closed = true) (a : α) : q.tryPush a = (.closed, q) := by
  simp [tryPush, closed]

theorem tryPush_of_full (opened : q.closed = false) (full : q.capacity ≤ q.buffer.length) (a : α) :
    q.tryPush a = (.full, q) := by
  simp [tryPush, opened, full]

theorem tryPush_of_room (opened : q.closed = false) (room : q.buffer.length < q.capacity) (a : α) :
    q.tryPush a = (.accepted, { q with buffer := q.buffer ++ [a] }) := by
  simp only [tryPush, opened, Bool.false_eq_true, if_false, Nat.not_le.mpr room]

theorem tryPop_of_cons {a : α} {rest : List α} (buffer : q.buffer = a :: rest) :
    q.tryPop = (.item a, { q with buffer := rest }) := by
  simp only [tryPop, buffer]

theorem tryPop_of_ended (buffer : q.buffer = []) (closed : q.closed = true) :
    q.tryPop = (.closed, q) := by
  simp only [tryPop, buffer, closed, if_true]

theorem tryPop_of_empty (buffer : q.buffer = []) (opened : q.closed = false) :
    q.tryPop = (.empty, q) := by
  simp only [tryPop, buffer, opened, Bool.false_eq_true, if_false]

end DecodePipeline.Queue
