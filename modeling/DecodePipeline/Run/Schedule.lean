import DecodePipeline.Run.Step

/-!
One schedule for a run: the task that has waited longest goes first and goes on until it is held up; when
all are held up the clock jumps to the next point in time that something waits for. The schedule works for
a run by itself and for anything else that holds one.
-/

namespace DecodePipeline

namespace Run

/-- A task of the run, for the order of turns. -/
inductive Turn where
  | supervisor
  | discovery
  | worker (index : Nat)
  | lone
  | consumption
  | collector
  deriving Repr, DecidableEq

/-- The actions of one task, in the order in which it prefers them. -/
def Turn.actions : Turn → List Action
  | supervisor =>
    [Signal.launch, .discoveryEnded, .cancellation, .workerEnded, .workersGone, .consumptionEnded, .arm,
      .deadline].map .supervisor
  | discovery => [.discovery]
  | worker i => [.worker i]
  | lone => [.lone]
  | consumption => [.consumption]
  | collector => [.collector]

def stepTurn (w : World) (r : Run) (t : Turn) : Option Run :=
  t.actions.findSome? (r.step w)

/-- The tasks of a run, in the order in which they come into being. -/
def turns (r : Run) : List Turn :=
  [.supervisor, .discovery] ++ (List.range r.workers.length).map .worker ++ [.lone, .consumption, .collector]

/-- New tasks take their turn after those that are already there. -/
def joinTurns (r : Run) (order : List Turn) : List Turn :=
  if order.length = r.turns.length then order else order ++ r.turns.filter fun t => !order.contains t

/-- Outside events: when the run is cancelled from outside. -/
structure Plan where
  cancelAt : Option Nat := none
  horizon : Nat := 1000000

/-- The next point in time at which anything happens, not after the horizon. -/
def nextTime (p : Plan) (r : Run) : Nat :=
  let later := (r.dues ++ p.cancelAt.toList).filter (r.hub.now < ·)
  later.foldl min p.horizon

def cancelIfDue (p : Plan) (r : Run) : Run :=
  if p.cancelAt.any (· ≤ r.hub.now) then r.cancel else r

def setClock (time : Nat) (r : Run) : Run := { r with hub := { r.hub with now := time } }

end Run

/-- Something that holds a run: how the run in it is seen and changed from outside, and what the turn of a
task makes of the whole. -/
structure Host (σ : Type) where
  run : σ → Run
  change : (Run → Run) → σ → σ
  turn : σ → Run.Turn → Option σ

namespace Host

open Run

variable {σ : Type}

/-- A run by itself, with collaborators that are known beforehand. -/
def ofWorld (w : World) : Host Run := ⟨id, id, stepTurn w⟩

/-- A task goes on until it is held up. -/
def runTurn (h : Host σ) (t : Turn) : Nat → σ → σ
  | 0, a => a
  | fuel + 1, a =>
    match h.turn a t with
    | some b => runTurn h t fuel b
    | none => a

/-- The first task that can go on, what its turn makes of the whole, and the other tasks. -/
def firstReady (h : Host σ) (a : σ) : List Turn → Option (Turn × σ × List Turn)
  | [] => none
  | t :: rest =>
    match h.turn a t with
    | some b => some (t, b, rest)
    | none => (firstReady h a rest).map fun (u, b, others) => (u, b, t :: others)

/-- Runs tasks until all are held up or `ended` says so. -/
def settle (h : Host σ) (ended : Run → Bool) : Nat → List Turn → σ → List Turn × σ
  | 0, order, a => (order, a)
  | fuel + 1, order, a =>
    if ended (h.run a) then (order, a)
    else
      match h.firstReady a order with
      | none => (order, a)
      | some (t, b, others) =>
        let b := h.runTurn t fuel b
        settle h ended fuel (joinTurns (h.run b) (others ++ [t])) b

/-- How many turns are taken at one point in time. -/
def turnLimit : Nat := 10000000

/-- Runs until `ended` holds or the horizon is reached; as many points in time as the first argument says. -/
def simulate (h : Host σ) (p : Plan) (ended : Run → Bool) : Nat → List Turn → σ → List Turn × σ
  | 0, order, a => (order, a)
  | fuel + 1, order, a =>
    let (order, a) := h.settle ended turnLimit order (h.change (cancelIfDue p) a)
    let r := h.run a
    if ended r || p.horizon ≤ r.hub.now then (order, a)
    else simulate h p ended fuel order (h.change (setClock (nextTime p r)) a)

/-- The run from its beginning to the point where `ended` holds or the horizon is reached. -/
def play (h : Host σ) (p : Plan) (a : σ) (ended : Run → Bool) : List Turn × σ :=
  h.simulate p ended (p.horizon + 2) (h.run a).turns a

end Host

end DecodePipeline
