import DecodePipeline.Manifest
import DecodePipeline.Proofs.FileTree.Writing
import DecodePipeline.Proofs.Json.Record

/-!
The manifest as a log. What was in the file stays, and behind it stands one line for each event in their
order, from which the event is read back.
-/

namespace DecodePipeline

variable {t t' : FileTree} {cwd l : Location} {path : String}

namespace Manifest

namespace Event

/-- The numbers of an event fit their words. -/
def Fits : Event → Prop
  | reset _ => True
  | accept seq set => seq < Decimal.limit64 ∧ set.attempts < Decimal.limit32

theorem plain_toJson (e : Event) : e.toJson.Plain := by
  cases e with
  | reset time => exact .obj _ (by simp [Json.Plain.str])
  | accept seq set =>
      exact .obj _ (by simp [Json.Plain.str, Json.Plain.int, Json.ofNat, set.plain_toJson])

theorem ofJson?_toJson {e : Event} (fits : e.Fits) : ofJson? e.toJson = some e := by
  cases e with
  | reset time => simp [ofJson?, toJson, Json.field?, Json.text?, Json.instant?_text]
  | accept seq set =>
      obtain ⟨seqFits, attempts⟩ := fits
      simp [ofJson?, toJson, Json.field?, Json.text?, Json.natBelow?_ofNat seqFits,
        ArtifactSet.ofJson?_toJson attempts]

/-- What is read from a line without its end. -/
def read? (body : String) : Option Event := (Json.read? body).bind ofJson?

/-- An event is written as one line and read back from it. -/
theorem read?_render {e : Event} (fits : e.Fits) : read? e.toJson.render = some e := by
  rw [read?, Json.read?_render e.plain_toJson, Option.bind_some, ofJson?_toJson fits]

end Event

/-- The lines of events, one behind the other. -/
def log (events : List Event) : List UInt8 :=
  events.flatMap fun e => Text.encodeUtf8 e.line

/-- What is in a file, which need not be there. -/
def Holds (t : FileTree) (l : Location) (content : List UInt8) : Prop :=
  t.node? l = none ∧ content = [] ∨ ∃ executable, t.node? l = some (.file content executable)

end Manifest

namespace Renderer

open Manifest

/-- Events are shown one after another, and each goes well. -/
inductive Shown (r : Renderer) (cwd : Location) : FileTree → List Event → FileTree → Prop where
  | nil (t : FileTree) : Shown r cwd t [] t
  | cons {t t₁ t' : FileTree} {e : Event} {events : List Event}
      (first : r.present t cwd e = (t₁, .ok ())) (rest : Shown r cwd t₁ events t') :
      Shown r cwd t (e :: events) t'

end Renderer

namespace Manifest

open FileTree

theorem prepare_grown (sound : t.Sound) (cwd : Location) (path : String) :
    Grown t (prepare t cwd path).1 := by
  simp only [prepare]
  cases (Path.parent? path).filter fun above => !above.isEmpty with
  | none => exact .refl sound
  | some above =>
      have grown := createDirectories_grown sound cwd above
      rcases eq : t.createDirectories cwd above with ⟨t₁, e | _⟩
      all_goals
        rw [eq] at grown
        simpa only [eq] using grown

/-- An event is written as a line at the end of the file, above which directories may be made. -/
theorem written_of_present {e : Event} (sound : t.Sound)
    (shown : (Renderer.manifest path).present t cwd e = (t', .ok ())) :
    ∃ l, Written t t' cwd path l (Text.encodeUtf8 e.line) := by
  have grown := prepare_grown sound cwd path
  simp only [Renderer.present, Manifest.append] at shown
  rcases eq : prepare t cwd path with ⟨t₁, failure | _⟩
  · simp [eq] at shown
  · rw [eq] at grown
    simp only [eq] at shown
    cases appended : t₁.append cwd path (Text.encodeUtf8 e.line) with
    | error e => simp [appended] at shown
    | ok t₂ =>
        simp only [appended, Prod.mk.injEq, and_true] at shown
        subst shown
        obtain ⟨l, written⟩ := written_of_append grown.sound appended
        exact ⟨l, written.after_grown grown⟩

/-- Events that are shown one after another are written one behind the other. -/
theorem written_of_shown {e : Event} {events : List Event} (sound : t.Sound)
    (shown : (Renderer.manifest path).Shown cwd t (e :: events) t') :
    ∃ l, Written t t' cwd path l (log (e :: events)) := by
  induction events generalizing t e with
  | nil =>
      obtain _ | ⟨first, ⟨⟩⟩ := shown
      simpa [log] using written_of_present sound first
  | cons next events ih =>
      obtain _ | ⟨first, rest⟩ := shown
      obtain ⟨l, written⟩ := written_of_present sound first
      obtain ⟨l', written'⟩ := ih written.sound rest
      exact ⟨l, written.trans written'⟩

/-- The file holds what it held before and the line behind it. -/
theorem read_of_written {bytes content : List UInt8} (written : Written t t' cwd path l bytes)
    (holds : Holds t l content) : t'.read cwd path = .ok (content ++ bytes) := by
  obtain ⟨n, leads⟩ := written.leads
  have at_ := (node?_of_find leads).symm.trans written.node
  have found : t'.read cwd path = contentOf 0 n := by
    simp [FileTree.read, stat, leads, Except.map, bind, Except.bind]
  obtain ⟨free, rfl⟩ | ⟨executable, own⟩ := holds
  · rw [free] at at_
    rw [found, Option.some.inj at_]
    rfl
  · rw [own] at at_
    rw [found, Option.some.inj at_]
    rfl

/-- After any events that were all shown, the manifest holds what it held before and one line for each of
them, in their order; nothing else changes, but that directories may be new. No line holds another line's
end, and each is read as its event. -/
theorem manifest_is_log {events : List Event} (sound : t.Sound) (fits : ∀ e ∈ events, e.Fits)
    (shown : (Renderer.manifest path).Shown cwd t events t') :
    (events = [] ∧ t' = t ∨
      ∃ l n, t'.find cwd true path = .ok (l, n) ∧
        (∀ x m, t.find cwd true path = .ok (x, m) → x = l) ∧
        (∀ content, Holds t l content → t'.read cwd path = .ok (content ++ log events)) ∧
        ∀ x, x ≠ l → t'.node? x = t.node? x ∨ t.node? x = none ∧ t'.node? x = some .directory) ∧
    ∀ e ∈ events, ∃ body : String, e.line = body ++ "\n" ∧ '\n' ∉ body.toList ∧
      Event.read? body = some e := by
  constructor
  · cases events with
    | nil =>
        cases shown
        exact .inl ⟨rfl, rfl⟩
    | cons e events =>
        obtain ⟨l, written⟩ := written_of_shown sound shown
        obtain ⟨n, leads⟩ := written.leads
        exact .inr ⟨l, n, leads, written.led, fun _ => read_of_written written, written.others⟩
  · intro e mem
    exact ⟨e.toJson.render, rfl, Json.newline_notMem_render e.plain_toJson,
      Event.read?_render (fits e mem)⟩

/-- A manifest that a link leads to, with text that does not end in a line's end, and a set whose strings
hold line ends themselves. -/
theorem manifest_is_log_behind_text :
    let old : List UInt8 := Text.encodeUtf8 "cut off"
    let t : FileTree := ⟨[(["m"], .link "out/../m.jsonl"), (["m.jsonl"], .file old true),
      (["out"], .directory)]⟩
    let set : ArtifactSet := ⟨"a\"\n\\", ["/out/\u00e9\r\n\u2028.ply"], Instant.epoch, 2⟩
    let r : Renderer := .manifest "/m"
    let first := r.present t [] (.reset Instant.epoch)
    let second := r.present first.1 [] (.accept 1 set)
    first.2 = .ok () ∧ second.2 = .ok () ∧
      second.1.read [] "/m" =
        .ok (old ++ log [.reset Instant.epoch, .accept 1 set]) ∧
      ∃ body : String, (Event.accept 1 set).line = body ++ "\n" ∧ '\n' ∉ body.toList ∧
        Event.read? body = some (.accept 1 set) := by
  intro old t set r first second
  have reset : first.2 = .ok () := by decide +kernel
  have accepted : second.2 = .ok () := by decide +kernel
  have shown : r.Shown [] t [.reset Instant.epoch, .accept 1 set] second.1 :=
    .cons (Prod.ext rfl reset) (.cons (Prod.ext rfl accepted) (.nil _))
  have fits : ∀ e ∈ [Event.reset Instant.epoch, .accept 1 set], e.Fits := by
    simp [Event.Fits, Decimal.limit64, Decimal.limit32, set]
  have led : t.find [] true "/m" = .ok (["m.jsonl"], .file old true) := by decide +kernel
  have sound : t.Sound := by decide +kernel
  obtain ⟨⟨⟨⟩, _⟩ | ⟨l, n, _, same, reads, _⟩, lines⟩ := manifest_is_log sound fits shown
  obtain rfl := same _ _ led
  exact ⟨reset, accepted, reads old (.inr ⟨true, rfl⟩), lines _ (by simp)⟩

end Manifest

end DecodePipeline
