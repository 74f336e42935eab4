import DecodePipeline.Stage.Hub

/-!
What a step of a task leaves as it is in what the tasks share.
-/

namespace DecodePipeline.Hub

/-- Two hubs that differ at most in the slots, the record of decoder calls and the files. -/
structure Alike (hub hub' : Hub) : Prop where
  now : hub'.now = hub.now
  cancelled : hub'.cancelled = hub.cancelled
  work : hub'.work = hub.work
  artifacts : hub'.artifacts = hub.artifacts
  stats : hub'.stats = hub.stats
  scans : hub'.scans = hub.scans

/-- What every step of discovery, a worker or consumption keeps: the clock, the token, the
capacities, and that a queue is closed or within its capacity. Only the supervisor closes
the artifact queue. -/
structure Kept (hub hub' : Hub) : Prop where
  now : hub'.now = hub.now
  cancelled : hub'.cancelled = hub.cancelled
  work_capacity : hub'.work.capacity = hub.work.capacity
  artifacts_capacity : hub'.artifacts.capacity = hub.artifacts.capacity
  work_closed : hub.work.closed → hub'.work.closed
  artifacts_closed : hub'.artifacts.closed = hub.artifacts.closed
  work_size : hub.work.size ≤ hub.work.capacity → hub'.work.size ≤ hub'.work.capacity
  artifacts_size : hub.artifacts.size ≤ hub.artifacts.capacity →
    hub'.artifacts.size ≤ hub'.artifacts.capacity

theorem Alike.kept {hub hub' : Hub} (h : hub.Alike hub') : hub.Kept hub' where
  now := h.now
  cancelled := h.cancelled
  work_capacity := by rw [h.work]
  artifacts_capacity := by rw [h.artifacts]
  work_closed closed := by rwa [h.work]
  artifacts_closed := by rw [h.artifacts]
  work_size le := by rwa [h.work]
  artifacts_size le := by rwa [h.artifacts]

theorem Kept.refl (hub : Hub) : hub.Kept hub :=
  ⟨rfl, rfl, rfl, rfl, id, rfl, id, id⟩

theorem Kept.trans {hub hub' hub'' : Hub} (h : hub.Kept hub') (h' : hub'.Kept hub'') :
    hub.Kept hub'' where
  now := h'.now.trans h.now
  cancelled := h'.cancelled.trans h.cancelled
  work_capacity := h'.work_capacity.trans h.work_capacity
  artifacts_capacity := h'.artifacts_capacity.trans h.artifacts_capacity
  work_closed closed := h'.work_closed (h.work_closed closed)
  artifacts_closed := h'.artifacts_closed.trans h.artifacts_closed
  work_size le := h'.work_size (h.work_size le)
  artifacts_size le := h'.artifacts_size (h.artifacts_size le)

theorem kept_count (hub : Hub) (f : Stats → Stats) : hub.Kept (hub.count f) :=
  ⟨rfl, rfl, rfl, rfl, id, rfl, id, id⟩

theorem kept_takeWork {hub : Hub} {item : WorkItem} {rest : List WorkItem}
    (buffer : hub.work.buffer = item :: rest) :
    hub.Kept { hub with work := { hub.work with buffer := rest } } where
  now := rfl
  cancelled := rfl
  work_capacity := rfl
  artifacts_capacity := rfl
  work_closed := id
  artifacts_closed := rfl
  work_size le := by
    simp only [Queue.size, buffer, List.length_cons] at le ⊢
    omega
  artifacts_size := id

theorem kept_takeSet {hub : Hub} {set : ArtifactSet} {rest : List ArtifactSet}
    (buffer : hub.artifacts.buffer = set :: rest) :
    hub.Kept { hub with artifacts := { hub.artifacts with buffer := rest } } where
  now := rfl
  cancelled := rfl
  work_capacity := rfl
  artifacts_capacity := rfl
  work_closed := id
  artifacts_closed := rfl
  work_size := id
  artifacts_size le := by
    simp only [Queue.size, buffer, List.length_cons] at le ⊢
    omega

theorem kept_putWork {hub : Hub} (item : WorkItem)
    (room : hub.work.buffer.length < hub.work.capacity) :
    hub.Kept { hub with work := { hub.work with buffer := hub.work.buffer ++ [item] } } where
  now := rfl
  cancelled := rfl
  work_capacity := rfl
  artifacts_capacity := rfl
  work_closed := id
  artifacts_closed := rfl
  work_size _ := by
    simp only [Queue.size, List.length_append, List.length_singleton]
    omega
  artifacts_size := id

theorem kept_putSet {hub : Hub} (set : ArtifactSet)
    (room : hub.artifacts.buffer.length < hub.artifacts.capacity) :
    hub.Kept
      { hub with
        artifacts := { hub.artifacts with buffer := hub.artifacts.buffer ++ [set] } } where
  now := rfl
  cancelled := rfl
  work_capacity := rfl
  artifacts_capacity := rfl
  work_closed := id
  artifacts_closed := rfl
  work_size := id
  artifacts_size _ := by
    simp only [Queue.size, List.length_append, List.length_singleton]
    omega

end DecodePipeline.Hub
