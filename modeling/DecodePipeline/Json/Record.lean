import DecodePipeline.Json.Reader
import DecodePipeline.Json.Writer
import DecodePipeline.WorkItem

/-!
Work items and artifact sets as JSON. Writing keeps one order of the members; reading takes an object
with its members in any order, each known name at most once and unknown ones ignored, or an array that
lists all members in the order of writing.
-/

namespace DecodePipeline

namespace Json

/-- A record's members: each known name is looked up; a name that is repeated is refused. -/
def Members.get? (members : List (String × Json)) (name : String) : Option (Option Json) :=
  match members.filter (·.1 = name) with
  | [] => some none
  | [(_, j)] => some (some j)
  | _ => none

/-- The values of a record's members by name, from an object or from an array of just as many elements.
Where a member is absent its place is empty. -/
def record? (names : List String) : Json → Option (List (Option Json))
  | obj members => names.mapM (Members.get? members)
  | arr items => if items.length = names.length then some (items.map some) else none
  | _ => none

/-- A text or nothing; null is nothing. -/
def textOrNull? : Option Json → Option (Option String)
  | none | some null => some none
  | some (str s) => some (some s)
  | _ => none

/-- The name of a choice: a string, or an object with that one name and null in it. -/
def choice? : Json → Option String
  | str s => some s
  | obj [(name, null)] => some name
  | _ => none

def instant? (j : Json) : Option Instant :=
  j.text?.bind Instant.read?

end Json

namespace WorkItem

def members : List String := ["id", "source", "status", "attempt", "last_error", "discovered_at"]

/-- The error is left out when there is none. -/
def toJson (item : WorkItem) : Json :=
  .obj (
    [("id", .str item.id), ("source", .str item.source), ("status", .str item.status.name),
      ("attempt", .ofNat item.attempt)] ++
    (match item.lastError with
      | none => []
      | some error => [("last_error", .str error)]) ++
    [("discovered_at", .str item.discoveredAt.text)])

def ofJson? (j : Json) : Option WorkItem := do
  match ← Json.record? members j with
  | [some id, some source, some status, some attempt, error, some time] =>
    return {
      id := ← id.text?
      source := ← source.text?
      status := ← (Json.choice? status).bind Status.ofName?
      attempt := ← Json.natBelow? Decimal.limit32 attempt
      lastError := ← Json.textOrNull? error
      discoveredAt := ← Json.instant? time }
  | _ => none

end WorkItem

namespace ArtifactSet

def members : List String := ["item_id", "files", "produced_at", "attempts"]

def toJson (set : ArtifactSet) : Json :=
  .obj [("item_id", .str set.itemId), ("files", .strings set.files),
    ("produced_at", .str set.producedAt.text), ("attempts", .ofNat set.attempts)]

def ofJson? (j : Json) : Option ArtifactSet := do
  match ← Json.record? members j with
  | [some id, some files, some time, some attempts] =>
    return {
      itemId := ← id.text?
      files := ← files.items?.bind (Json.all? Json.text?)
      producedAt := ← Json.instant? time
      attempts := ← Json.natBelow? Decimal.limit32 attempts }
  | _ => none

end ArtifactSet

end DecodePipeline
