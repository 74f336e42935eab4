import DecodePipeline.Settings
import DecodePipeline.Stage.Hub

/-!
Discovery: lists the catalog and publishes each new id once, in canonical order, as a queued work item.
Batch mode lists once; poll mode lists again after each interval. One step goes from one point where the
task can be held up to the next.
-/

namespace DecodePipeline

namespace Discovery

inductive Point where
  | scanning
  | listing (due : Option Nat) (reply : Reply (List String) (List SourceEntry))
  | publishing (rest : List SourceEntry)
  | resting (due : Nat)
  | ended (ending : Ending Nat)
  deriving Repr, DecidableEq

end Discovery

/-- The task: its mode, the ids published so far, and whether a scan has succeeded. -/
structure Discovery where
  mode : DiscoveryMode
  maxItems : Option Nat
  published : List String := []
  scanned : Bool := false
  point : Discovery.Point := .scanning
  deriving Repr, DecidableEq

namespace Discovery

def limitReached (d : Discovery) : Bool :=
  d.maxItems.any (· ≤ d.published.length)

/-- Entries in canonical order whose ids have not been published. -/
def fresh (d : Discovery) (sources : List SourceEntry) : List SourceEntry :=
  (canonicalOrder sources).filter fun s => !d.published.contains s.id

/-- Ends the task. When nothing more can come the work queue is closed. -/
def finish (d : Discovery) (hub : Hub) (ending : Ending Nat) : Hub × Discovery :=
  let last := d.mode = .batch ∨ d.limitReached
  (if last then { hub with work := hub.work.close } else hub, { d with point := .ended ending })

/-- After a scan that succeeded, or a later one that failed: rest until the next scan, or end. -/
def afterScan (d : Discovery) (hub : Hub) : Hub × Discovery :=
  let d := { d with scanned := true }
  match d.mode with
  | .batch => d.finish hub (.returned d.published.length)
  | .poll interval =>
    if d.limitReached then d.finish hub (.returned d.published.length)
    else (hub, { d with point := .resting (hub.now + interval.millis) })

/-- A failing first scan means that the catalog is unusable; later ones are tried again. -/
def afterFailedScan (d : Discovery) (hub : Hub) (messages : List String) : Hub × Discovery :=
  if d.scanned then d.afterScan hub
  else d.finish hub (.faulted (.discovery (Failure.chain messages)))

def workItem (s : SourceEntry) : WorkItem :=
  (WorkItem.new s.id s.path Instant.epoch).queued

def step (w : World) (d : Discovery) (hub : Hub) : Option (Hub × Discovery) :=
  match d.point with
  | .scanning =>
    let b := w.catalog hub.scans.length
    some ({ hub with scans := hub.scans ++ [hub.now] },
      { d with point := .listing (dueAt hub.now b.delay) b.reply })
  | .listing due reply =>
    if isDue hub.now due then
      match reply with
      | .panics => some (hub, { d with point := .ended .panicked })
      | .fails messages => some (d.afterFailedScan hub messages)
      | .gives sources => some (hub, { d with point := .publishing (d.fresh sources) })
    else none
  | .publishing [] => some (d.afterScan hub)
  | .publishing (s :: rest) =>
    if d.limitReached then some (d.afterScan hub)
    else if hub.cancelled then some (d.finish hub (.faulted .cancelled))
    else
      match hub.work.tryPush (workItem s) with
      | (.accepted, work) =>
        some ({ hub with work }.count Stats.addDiscovered,
          { d with published := d.published ++ [s.id], point := .publishing rest })
      | (.closed, _) => some (d.finish hub (.faulted .queueClosed))
      | (.full, _) => none
  | .resting due =>
    if hub.cancelled then some (d.finish hub (.returned d.published.length))
    else if due ≤ hub.now then some (hub, { d with point := .scanning })
    else none
  | .ended _ => none

/-- When the clock alone lets the task go on. -/
def nextDue (d : Discovery) : Option Nat :=
  match d.point with
  | .listing due _ => due
  | .resting due => some due
  | _ => none

def ending? (d : Discovery) : Option (Ending Nat) :=
  match d.point with
  | .ended e => some e
  | _ => none

/-- Ends the task where it stands; a task that has ended stays as it is. -/
def abort (d : Discovery) : Discovery :=
  match d.point with
  | .ended _ => d
  | _ => { d with point := .ended .aborted }

end Discovery

end DecodePipeline
