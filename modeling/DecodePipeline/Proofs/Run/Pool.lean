import DecodePipeline.Proofs.Run.Order

/-!
A stage that decodes, used by any number of callers at once: workers that take from its queue,
and others who have a single item decoded. Each has a token of its own and may be ended at any
point. The slots bound the calls in flight, and a call gives its slot back however it ends.
-/

namespace DecodePipeline

/-- What a caller's step makes of the slots and of the calls in flight, by whether it had a call in
flight before and has one after. -/
structure Hub.Uses (hub hub' : Hub) (before after : Bool) : Prop where
  slots : hub'.slots + after.toNat = hub.slots + before.toNat
  running : before.toNat ≤ hub.running → hub'.running + before.toNat = hub.running + after.toNat
  peak : hub'.peak ≤ max hub.peak hub'.running

theorem Hub.uses_same (hub : Hub) (before : Bool) : hub.Uses hub before before :=
  ⟨rfl, fun _ => rfl, Nat.le_max_left _ _⟩

theorem Hub.uses_endCall (hub : Hub) : hub.Uses hub.endCall true false where
  slots := rfl
  running one := Nat.sub_add_cancel one
  peak := Nat.le_max_left _ _

/-- The counters and the queues do not matter. -/
theorem Hub.Uses.congr {hub hub' hub'' : Hub} {before after : Bool} (h : hub.Uses hub' before after)
    (slots : hub''.slots = hub'.slots) (running : hub''.running = hub'.running)
    (peak : hub''.peak = hub'.peak) : hub.Uses hub'' before after :=
  ⟨slots ▸ h.slots, running ▸ h.running, by rw [peak, running]; exact h.peak⟩

theorem Attempts.Moves.uses {w : World} {policy : RetryPolicy} {timeout : Span} {hub hub' : Hub}
    {a a' : Attempts} (h : a.Moves w policy timeout hub hub' a') :
    hub.Uses hub' a.isCalling a'.isCalling := by
  have slots := h.slots
  cases h with
  | call => exact ⟨slots, fun _ => rfl, Nat.le_refl _⟩
  | giveUpWaiting | resume | giveUpPausing => exact hub.uses_same false
  | heed | panic | replyCancelled | retry | fail => exact hub.uses_endCall
  | succeed => exact hub.uses_endCall.congr rfl rfl rfl

theorem Attempts.uses_abort (a : Attempts) (hub : Hub) :
    hub.Uses (a.abort hub).1 a.isCalling (a.abort hub).2.isCalling := by
  cases a with
  | calling => exact hub.uses_endCall
  | waiting | pausing | ended => exact hub.uses_same false

theorem Worker.Moves.uses {w : World} {s : Settings} {hub hub' : Hub} {x x' : Worker}
    (h : x.Moves w s hub hub' x') : hub.Uses hub' x.isCalling x'.isCalling := by
  cases h with
  | leave at_ | take _ _ at_ | abandonSet _ at_ | hand _ at_ | refused _ at_ =>
      have before : x.isCalling = false := by simp [isCalling, at_]
      rw [before]
      exact (hub.uses_same false).congr rfl rfl rfl
  | attempt a a' at_ moved =>
      have before : x.isCalling = a.isCalling := by simp [isCalling, at_]
      rw [before]
      exact moved.uses
  | transformed a _ at_ moved | failed a _ _ at_ moved | abandon a at_ moved | panic a at_ moved =>
      have before : x.isCalling = a.isCalling := by simp [isCalling, at_]
      rw [before]
      exact moved.uses.congr rfl rfl rfl

theorem Worker.uses_abort (x : Worker) (hub : Hub) :
    hub.Uses (x.abort hub).1 x.isCalling (x.abort hub).2.isCalling := by
  rw [abort_eq, isCalling_of_over x.over_aborted]
  cases x.isCalling with
  | true => exact hub.uses_endCall
  | false => exact hub.uses_same false

/-- A worker, or somebody who has one item decoded. -/
inductive Caller where
  | worker (x : Worker)
  | single (a : Attempts)

namespace Caller

def isCalling : Caller → Bool
  | worker x => x.isCalling
  | single a => a.isCalling

def step (w : World) (s : Settings) (hub : Hub) : Caller → Option (Hub × Caller)
  | worker x => (x.step w s hub).map fun (hub, x) => (hub, worker x)
  | single a => (a.step w s.retry s.transformTimeout hub).map fun (hub, a) => (hub, single a)

def abort (hub : Hub) : Caller → Hub × Caller
  | worker x => ((x.abort hub).1, worker (x.abort hub).2)
  | single a => ((a.abort hub).1, single (a.abort hub).2)

theorem uses_of_step {w : World} {s : Settings} {hub hub' : Hub} {caller caller' : Caller}
    (h : caller.step w s hub = some (hub', caller')) :
    hub.Uses hub' caller.isCalling caller'.isCalling := by
  cases caller with
  | worker x =>
      obtain ⟨⟨_, _⟩, stepped, eq⟩ := Option.map_eq_some_iff.mp h
      cases eq
      exact (Worker.moves_of_step stepped).uses
  | single a =>
      obtain ⟨⟨_, _⟩, stepped, eq⟩ := Option.map_eq_some_iff.mp h
      cases eq
      exact (Attempts.moves_of_step stepped).uses

theorem uses_abort (caller : Caller) (hub : Hub) :
    hub.Uses (caller.abort hub).1 caller.isCalling (caller.abort hub).2.isCalling := by
  cases caller with
  | worker x => exact x.uses_abort hub
  | single a => exact a.uses_abort hub

end Caller

/-- A stage with its callers, each with whether its token is cancelled. -/
structure Pool where
  hub : Hub
  callers : List (Caller × Bool) := []

namespace Pool

/-- How many calls are in flight. -/
def inFlight (p : Pool) : Nat := p.callers.countP (·.1.isCalling)

/-- The hub as a caller with a token sees it. -/
def seen (p : Pool) (cancelled : Bool) : Hub := { p.hub with cancelled }

/-- A stage that is made for a number of workers, and that nobody has used. -/
structure Fresh (workers : Nat) (p : Pool) : Prop where
  callers : p.callers = []
  slots : p.hub.slots = max 1 workers
  running : p.hub.running = 0
  peak : p.hub.peak = 0

/-- Callers come, go on, and are cancelled or ended, each by itself. What else happens to what they
share concerns neither the slots nor the calls in flight. -/
inductive Event (w : World) (s : Settings) (p : Pool) : Pool → Prop where
  | work (cancelled : Bool) :
      Event w s p { p with callers := p.callers ++ [(.worker {}, cancelled)] }
  | process (item : WorkItem) (cancelled : Bool) :
      Event w s p { p with callers := p.callers ++ [(.single (.begin item), cancelled)] }
  | step (i : Nat) {caller caller' : Caller} {cancelled : Bool} {hub : Hub} :
      p.callers[i]? = some (caller, cancelled) →
      caller.step w s (p.seen cancelled) = some (hub, caller') →
      Event w s p { hub, callers := p.callers.set i (caller', cancelled) }
  | cancel (i : Nat) {caller : Caller} {cancelled : Bool} :
      p.callers[i]? = some (caller, cancelled) →
      Event w s p { p with callers := p.callers.set i (caller, true) }
  | abort (i : Nat) {caller : Caller} {cancelled : Bool} :
      p.callers[i]? = some (caller, cancelled) →
      Event w s p
        { hub := (caller.abort p.hub).1
          callers := p.callers.set i ((caller.abort p.hub).2, cancelled) }
  | elsewhere (hub : Hub) : hub.slots = p.hub.slots → hub.running = p.hub.running →
      hub.peak = p.hub.peak → Event w s p { p with hub }

/-- Every slot is free or held by a call in flight. -/
structure Capped (workers : Nat) (p : Pool) : Prop where
  slots : p.hub.slots + p.inFlight = max 1 workers
  running : p.hub.running = p.inFlight
  peak : p.hub.peak ≤ max 1 workers

variable {w : World} {s : Settings} {workers : Nat} {p p' : Pool}

theorem Fresh.capped (fresh : Fresh workers p) : Capped workers p where
  slots := by simp [inFlight, fresh.callers, fresh.slots]
  running := by simp [inFlight, fresh.callers, fresh.running]
  peak := by simp [fresh.peak]

theorem Capped.congr (capped : Capped workers p) (slots : p'.hub.slots = p.hub.slots)
    (running : p'.hub.running = p.hub.running) (peak : p'.hub.peak = p.hub.peak)
    (inFlight : p'.inFlight = p.inFlight) : Capped workers p' :=
  ⟨by rw [slots, inFlight, capped.slots], by rw [running, inFlight, capped.running],
    by rw [peak]; exact capped.peak⟩

/-- What one caller does, the others left as they are. -/
theorem Capped.uses {i : Nat} {caller caller' : Caller} {cancelled cancelled' : Bool} {hub : Hub}
    (capped : Capped workers p) (at_ : p.callers[i]? = some (caller, cancelled))
    (uses : p.hub.Uses hub caller.isCalling caller'.isCalling) :
    Capped workers { hub, callers := p.callers.set i (caller', cancelled') } := by
  obtain ⟨others, before, after⟩ := exists_perm_set at_ (caller', cancelled')
  have old : p.inFlight = others.countP (·.1.isCalling) + caller.isCalling.toNat := by
    rw [inFlight, before.countP_eq, List.countP_cons]
    cases caller.isCalling <;> rfl
  have new : inFlight { hub, callers := p.callers.set i (caller', cancelled') } =
      others.countP (·.1.isCalling) + caller'.isCalling.toNat := by
    rw [inFlight, after.countP_eq, List.countP_cons]
    cases caller'.isCalling <;> rfl
  have slots := capped.slots
  have running := capped.running
  have peak := capped.peak
  have slots' := uses.slots
  have running' := uses.running (by omega)
  have peak' := uses.peak
  refine ⟨?_, ?_, ?_⟩
  · rw [new]
    dsimp only
    omega
  · rw [new]
    dsimp only
    omega
  · dsimp only
    omega

theorem Capped.event (capped : Capped workers p) (h : Event w s p p') : Capped workers p' := by
  cases h with
  | work | process =>
      refine capped.congr rfl rfl rfl ?_
      simp [inFlight, Caller.isCalling, Worker.isCalling, Attempts.begin, Attempts.isCalling]
  | step i at_ stepped =>
      refine capped.uses at_ ?_
      obtain ⟨slots, running, peak⟩ := Caller.uses_of_step stepped
      exact ⟨slots, running, peak⟩
  | @cancel i caller cancelled at_ =>
      have same : p.hub.Uses p.hub caller.isCalling caller.isCalling := p.hub.uses_same _
      exact capped.uses at_ same
  | abort i at_ => exact capped.uses at_ (Caller.uses_abort _ _)
  | elsewhere hub slots running peak => exact capped.congr slots running peak rfl

theorem capped_of_reached {p₀ : Pool} (fresh : Fresh workers p₀)
    (reached : Relation.ReflTransGen (Event w s) p₀ p) : Capped workers p := by
  induction reached with
  | refl => exact fresh.capped
  | tail _ event ih => exact ih.event event

end Pool

end DecodePipeline
