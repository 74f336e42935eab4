import DecodePipeline.Time.Instant

/-!
Work items: one discovered source on its way to a terminal outcome, with the number of attempts begun.
-/

namespace DecodePipeline

inductive Status where
  | discovered
  | queued
  | transforming
  | transformed
  | consumed
  | failed
  deriving DecidableEq, Repr

namespace Status

def isTerminal : Status → Bool
  | transformed | consumed | failed => true
  | discovered | queued | transforming => false

def name : Status → String
  | discovered => "discovered"
  | queued => "queued"
  | transforming => "transforming"
  | transformed => "transformed"
  | consumed => "consumed"
  | failed => "failed"

def all : List Status := [discovered, queued, transforming, transformed, consumed, failed]

def ofName? (s : String) : Option Status :=
  all.find? (·.name = s)

end Status

/-- A unit of work. Its id is unique within a run. -/
structure WorkItem where
  id : String
  source : String
  status : Status
  attempt : Nat
  lastError : Option String
  discoveredAt : Instant
  deriving DecidableEq, Repr

namespace WorkItem

def new (id source : String) (time : Instant) : WorkItem :=
  ⟨id, source, .discovered, 0, none, time⟩

def queued (item : WorkItem) : WorkItem :=
  { item with status := .queued }

def begun (item : WorkItem) : WorkItem :=
  { item with status := .transforming, attempt := item.attempt + 1 }

def noted (item : WorkItem) (error : String) : WorkItem :=
  { item with lastError := some error }

def transformed (item : WorkItem) : WorkItem :=
  { item with status := .transformed, lastError := none }

def failed (item : WorkItem) (error : String) : WorkItem :=
  { item with status := .failed, lastError := some error }

end WorkItem

/-- The files that a successful attempt left behind, in frame order. -/
structure ArtifactSet where
  itemId : String
  files : List String
  producedAt : Instant
  attempts : Nat
  deriving DecidableEq, Repr

/-- The set of an item's files after its last attempt. -/
def ArtifactSet.ofItem (item : WorkItem) (files : List String) (time : Instant) : ArtifactSet :=
  ⟨item.id, files, time, item.attempt⟩

end DecodePipeline
