/-!
Sources as a catalog lists them, and their canonical order: by id, one entry for each id.
-/

namespace DecodePipeline

structure SourceEntry where
  id : String
  path : String
  deriving DecidableEq, Repr

/-- An entry with those behind it, less those that have its id and follow it directly; and so on. -/
def withoutRepeats (a : SourceEntry) : List SourceEntry → List SourceEntry
  | [] => [a]
  | b :: rest => if a.id = b.id then withoutRepeats a rest else a :: withoutRepeats b rest

/-- Of entries that stand next to each other with one id, keeps the first. -/
def dropRepeats : List SourceEntry → List SourceEntry
  | [] => []
  | a :: rest => withoutRepeats a rest

/-- Entries by id, and of each id the entry that was listed first. -/
def canonicalOrder (sources : List SourceEntry) : List SourceEntry :=
  dropRepeats (sources.mergeSort fun a b => decide (a.id ≤ b.id))

end DecodePipeline
