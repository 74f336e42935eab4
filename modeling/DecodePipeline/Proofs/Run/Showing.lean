import DecodePipeline.Proofs.Queue.History
import DecodePipeline.Proofs.Run.Conservation
import DecodePipeline.Proofs.Run.Progress

/-!
What the renderer is called for, while others push sets, close the queue and change the files. It is
reset once, before the first set that passes the check. It is shown each set that passes, in queue
order, under the number that follows those of the sets it has taken.
-/

namespace DecodePipeline

/-- What the renderer is called for. -/
inductive Cue where
  | reset
  | accept (seq : Nat) (set : ArtifactSet)

def RendererCall.cue : RendererCall → Cue
  | .reset _ => .reset
  | .accept _ seq set => .accept seq set

namespace World

/-- Every call of the renderer ends, well or with an error. -/
structure Renders (w : World) : Prop where
  reset : w.reset.delay.isSome ∧ w.reset.reply ≠ .panics
  accept : ∀ i set, (w.accept i set).delay.isSome ∧ (w.accept i set).reply ≠ .panics

/-- Whether the renderer takes a set, if so many were shown to it before. -/
def takes (w : World) (i : Nat) (set : ArtifactSet) : Bool :=
  (w.accept i set).reply = .gives ()

/-- How many of some sets the renderer takes, if they are shown to it one after another. -/
def countTaken (w : World) (sets : List ArtifactSet) : Nat :=
  sets.zipIdx.countP fun (set, i) => w.takes i set

/-- The number of a set: one more than how many of those before it are taken. -/
def seqAt (w : World) (sets : List ArtifactSet) (i : Nat) : Nat :=
  w.countTaken (sets.take i) + 1

/-- The calls for some sets that are shown one after another. -/
def script (w : World) (sets : List ArtifactSet) : List Cue :=
  if sets = [] then [] else .reset :: sets.mapIdx fun i set => .accept (w.seqAt sets i) set

/-- The numbers of the sets that are taken. -/
def seqsTaken (w : World) (sets : List ArtifactSet) : List Nat :=
  (sets.zipIdx.filter fun (set, i) => w.takes i set).map fun (_, i) => w.seqAt sets i

variable {w : World} {set : ArtifactSet} {sets : List ArtifactSet} {i : Nat}

theorem countTaken_concat (w : World) (sets : List ArtifactSet) (set : ArtifactSet) :
    w.countTaken (sets ++ [set]) = w.countTaken sets + (w.takes sets.length set).toNat := by
  cases taken : w.takes sets.length set <;> simp [countTaken, List.zipIdx_append, taken]

theorem seqAt_concat (w : World) (set : ArtifactSet) (within : i ≤ sets.length) :
    w.seqAt (sets ++ [set]) i = w.seqAt sets i := by
  rw [seqAt, List.take_append_of_le_length within, seqAt]

theorem seqAt_length (w : World) (sets : List ArtifactSet) :
    w.seqAt sets sets.length = w.countTaken sets + 1 := by
  rw [seqAt, List.take_length]

theorem script_concat (w : World) (sets : List ArtifactSet) (set : ArtifactSet) :
    w.script (sets ++ [set]) =
      (if sets = [] then [.reset] else w.script sets) ++ [.accept (w.countTaken sets + 1) set] := by
  have same : sets.mapIdx (fun i set' => Cue.accept (w.seqAt (sets ++ [set]) i) set') =
      sets.mapIdx fun i set' => Cue.accept (w.seqAt sets i) set' := by
    refine List.ext_getElem (by simp) fun i _ lt => ?_
    rw [List.length_mapIdx] at lt
    simp [seqAt_concat w set (Nat.le_of_lt lt)]
  rw [script, if_neg (by simp), List.mapIdx_concat, same, seqAt_concat w set (Nat.le_refl _),
    seqAt_length]
  by_cases none : sets = []
  · simp [none]
  · simp [script, none]

/-- The sets that are taken are numbered without gaps. -/
theorem seqsTaken_eq_range' (w : World) (sets : List ArtifactSet) :
    w.seqsTaken sets = List.range' 1 (w.countTaken sets) := by
  induction sets using List.reverseRecOn with
  | nil => rfl
  | append_singleton sets set ih =>
      have same : (sets.zipIdx.filter fun (set, i) => w.takes i set).map
          (fun (_, i) => w.seqAt (sets ++ [set]) i) = w.seqsTaken sets := by
        refine List.map_congr_left fun (set', i) mem => ?_
        have lt := List.snd_lt_of_mem_zipIdx (List.mem_of_mem_filter mem)
        exact seqAt_concat w set (by simpa using Nat.le_of_lt lt)
      rw [seqsTaken, List.zipIdx_append, List.filter_append, List.map_append, same, ih,
        countTaken_concat]
      cases taken : w.takes sets.length set
      · simp [taken]
      · rw [Bool.toNat_true, List.range'_concat]
        simp [taken, seqAt_concat, seqAt_length, Nat.add_comm]

end World

namespace Consumption

/-- The set that is being checked. -/
def underCheck? (c : Consumption) : Option ArtifactSet :=
  match c.point with
  | .checking set => some set
  | .idle | .resetting _ _ _ | .accepting _ _ _ | .ended _ => none

/-- What the check finds of it, with the files as they are. -/
def verdict? (c : Consumption) (hub : Hub) : Option (ArtifactSet × Bool) :=
  c.underCheck?.map fun set => (set, (Validation.check c.expectedFrames hub.isPresent set).isOk)

/-- A call of the renderer runs. -/
def isShowing (c : Consumption) : Bool :=
  match c.point with
  | .resetting _ _ _ | .accepting _ _ _ => true
  | .idle | .checking _ | .ended _ => false

/-- The renderer was called for these sets, and for nothing else. -/
structure Played (w : World) (hub : Hub) (c : Consumption) (sets : List ArtifactSet) : Prop where
  cues : hub.rendererCalls.map RendererCall.cue = w.script sets
  shown : hub.shown = sets.length
  reset : c.wasReset = true ↔ sets ≠ []

/-- How consumption stands when these sets have passed. -/
inductive Stands (w : World) (hub : Hub) (c : Consumption) (sets : List ArtifactSet) : Prop where
  | even : c.isShowing = false → Played w hub c sets → c.accepted = w.countTaken sets →
      Stands w hub c sets
  | resetting (set : ArtifactSet) (due : Nat) (reply : Reply (List String) Unit) :
      c.point = .resetting set (some due) reply → reply ≠ .panics → sets = [set] →
      hub.rendererCalls.map RendererCall.cue = [.reset] → hub.shown = 0 → c.accepted = 0 →
      Stands w hub c sets
  | accepting (earlier : List ArtifactSet) (set : ArtifactSet) (due : Nat) :
      c.point = .accepting set (some due) (w.accept earlier.length set).reply →
      sets = earlier ++ [set] → Played w hub c sets → c.accepted = w.countTaken earlier →
      Stands w hub c sets

variable {w : World} {hub hub' : Hub} {c c' : Consumption} {sets : List ArtifactSet}
  {set : ArtifactSet}

/-- The sets among those that were checked that have passed. -/
def passing (verdicts : List (ArtifactSet × Bool)) : List ArtifactSet :=
  (verdicts.filter (·.2)).map (·.1)

/-- The next set is shown under the next number. -/
theorem stands_offer (renders : w.Renders) (sets : List ArtifactSet)
    (cues : hub.rendererCalls.map RendererCall.cue = if sets = [] then [.reset] else w.script sets)
    (shown : hub.shown = sets.length) (accepted : c.accepted = w.countTaken sets) :
    Stands w (c.offer w hub set).1 (c.offer w hub set).2 (sets ++ [set]) := by
  obtain ⟨delay, ends⟩ := Option.isSome_iff_exists.mp (renders.accept sets.length set).1
  refine .accepting sets set (hub.now + delay) ?_ rfl ⟨?_, ?_, ?_⟩ accepted
  · simp [offer, dueAt, shown, ends]
  · simp [offer, cues, RendererCall.cue, World.script_concat, accepted]
  · simpa [offer, Hub.shown] using shown
  · simp [offer]

theorem Stands.accept (stands : Stands w hub c sets) {due : Option Nat}
    {reply : Reply (List String) Unit} (at_ : c.point = .accepting set due reply) :
    ∃ earlier, sets = earlier ++ [set] ∧ Played w hub c sets ∧
      c.accepted = w.countTaken earlier ∧ reply = (w.accept earlier.length set).reply ∧
      due.isSome := by
  cases stands with
  | accepting earlier set' _ at' all played accepted =>
      rw [at_, Point.accepting.injEq] at at'
      obtain ⟨rfl, rfl, reply⟩ := at'
      exact ⟨earlier, all, played, accepted, reply, rfl⟩
  | even quiet => simp [isShowing, at_] at quiet
  | resetting _ _ _ at' => simp [at_] at at'

theorem Stands.reset (stands : Stands w hub c sets) {due : Option Nat}
    {reply : Reply (List String) Unit} (at_ : c.point = .resetting set due reply) :
    sets = [set] ∧ hub.rendererCalls.map RendererCall.cue = [.reset] ∧ hub.shown = 0 ∧
      c.accepted = 0 ∧ reply ≠ .panics ∧ due.isSome := by
  cases stands with
  | resetting set' _ _ at' ends only cues shown accepted =>
      rw [at_, Point.resetting.injEq] at at'
      obtain ⟨rfl, rfl, rfl⟩ := at'
      exact ⟨only, cues, shown, accepted, ends, rfl⟩
  | even quiet => simp [isShowing, at_] at quiet
  | accepting _ _ _ at' => simp [at_] at at'

/-- The calls that run end, and do not break down. -/
theorem Stands.ends (stands : Stands w hub c sets) (renders : w.Renders) {due : Option Nat}
    {reply : Reply (List String) Unit}
    (at_ : c.point = .resetting set due reply ∨ c.point = .accepting set due reply) :
    due.isSome ∧ reply ≠ .panics := by
  obtain at_ | at_ := at_
  · obtain ⟨_, _, _, _, ends, due⟩ := stands.reset at_
    exact ⟨due, ends⟩
  · obtain ⟨earlier, _, _, _, rfl, due⟩ := stands.accept at_
    exact ⟨due, (renders.accept _ _).2⟩

theorem Stands.even_of_quiet (stands : Stands w hub c sets) (quiet : c.isShowing = false) :
    Played w hub c sets ∧ c.accepted = w.countTaken sets := by
  cases stands with
  | even _ played accepted => exact ⟨played, accepted⟩
  | resetting _ _ _ at_ | accepting _ _ _ at_ => simp [isShowing, at_] at quiet

/-- Every reset that fails and every set that is refused is passed over. -/
theorem Stands.moves {verdicts : List (ArtifactSet × Bool)} (renders : w.Renders)
    (stands : Stands w hub c (passing verdicts)) (h : c.Moves w hub hub' c') :
    Stands w hub' c' (passing (verdicts ++ (c.verdict? hub).toList)) := by
  have unchecked (none : c.underCheck? = none) :
      passing (verdicts ++ (c.verdict? hub).toList) = passing verdicts := by
    simp [verdict?, none]
  have passes {set : ArtifactSet} (at_ : c.point = .checking set)
      (valid : Validation.check c.expectedFrames hub.isPresent set = .ok ()) :
      passing (verdicts ++ (c.verdict? hub).toList) = passing verdicts ++ [set] := by
    simp [verdict?, underCheck?, at_, valid, passing, Except.isOk, Except.toBool]
  cases h with
  | take _ _ at_ | leave at_ =>
      obtain ⟨played, accepted⟩ := stands.even_of_quiet (by simp [isShowing, at_])
      rw [unchecked (by simp [underCheck?, at_])]
      exact .even rfl ⟨played.cues, played.shown, played.reset⟩ accepted
  | reject set fault at_ invalid =>
      obtain ⟨played, accepted⟩ := stands.even_of_quiet (by simp [isShowing, at_])
      have fails : passing (verdicts ++ (c.verdict? hub).toList) = passing verdicts := by
        simp [verdict?, underCheck?, at_, invalid, passing, Except.isOk, Except.toBool]
      rw [fails]
      exact .even rfl ⟨played.cues, played.shown, played.reset⟩ accepted
  | reset set at_ valid first =>
      obtain ⟨played, accepted⟩ := stands.even_of_quiet (by simp [isShowing, at_])
      have none : passing verdicts = [] := by simpa [first] using played.reset
      obtain ⟨delay, ends⟩ := Option.isSome_iff_exists.mp renders.reset.1
      rw [passes at_ valid, none]
      rw [none] at played accepted
      refine .resetting set (hub.now + delay) w.reset.reply ?_ renders.reset.2 rfl ?_ ?_ accepted
      · simp [dueAt, ends]
      · simp [played.cues, World.script, RendererCall.cue]
      · simpa [Hub.shown] using played.shown
  | offer set at_ valid before =>
      obtain ⟨played, accepted⟩ := stands.even_of_quiet (by simp [isShowing, at_])
      rw [passes at_ valid]
      refine stands_offer renders _ ?_ played.shown accepted
      rw [if_neg (played.reset.mp before), played.cues]
  | offerAfterReset set due reply at_ _ _ =>
      obtain ⟨only, cues, shown, accepted, _⟩ := stands.reset at_
      rw [unchecked (by simp [underCheck?, at_]), only]
      exact stands_offer renders [] cues shown accepted
  | panic set due at_ => exact absurd rfl (stands.ends renders at_).2
  | refuse set due messages at_ =>
      obtain ⟨earlier, all, played, accepted, reply, _⟩ := stands.accept at_
      rw [unchecked (by simp [underCheck?, at_])]
      refine .even rfl ⟨played.cues, played.shown, played.reset⟩ ?_
      simp [all, World.countTaken_concat, World.takes, ← reply, accepted]
  | accept set due at_ =>
      obtain ⟨earlier, all, played, accepted, reply, _⟩ := stands.accept at_
      rw [unchecked (by simp [underCheck?, at_])]
      refine .even rfl ⟨played.cues, played.shown, played.reset⟩ ?_
      simp [all, World.countTaken_concat, World.takes, ← reply, accepted]

theorem Stands.congr (stands : Stands w hub c sets)
    (calls : hub'.rendererCalls = hub.rendererCalls) : Stands w hub' c sets := by
  have shown : hub'.shown = hub.shown := by rw [Hub.shown, calls, Hub.shown]
  have played (played : Played w hub c sets) : Played w hub' c sets :=
    ⟨calls ▸ played.cues, shown.trans played.shown, played.reset⟩
  cases stands with
  | even quiet same accepted => exact .even quiet (played same) accepted
  | resetting set due reply at_ ends only cues none accepted =>
      exact .resetting set due reply at_ ends only (calls ▸ cues) (shown.trans none) accepted
  | accepting earlier set due at_ all same accepted =>
      exact .accepting earlier set due at_ all (played same) accepted

theorem verdict?_fst (c : Consumption) (hub : Hub) :
    (c.verdict? hub).toList.map (·.1) = c.underCheck?.toList := by
  cases under : c.underCheck? <;> simp [verdict?, under]

theorem Moves.order (h : c.Moves w hub hub' c') :
    c'.taken ++ hub'.artifacts.buffer = c.taken ++ hub.artifacts.buffer := by
  cases h with
  | take set rest idle buffer => simp [buffer]
  | leave | reject | reset | offer | offerAfterReset | panic | refuse | accept => rfl

theorem Moves.taken (h : c.Moves w hub hub' c') :
    c'.taken = c.taken ++ c'.underCheck?.toList := by
  cases h with
  | take => rfl
  | leave | reject | reset | offer | offerAfterReset | panic | refuse | accept =>
      exact (List.append_nil _).symm

theorem Moves.accepted (h : c.Moves w hub hub' c') (same : hub.stats.consumed = c.accepted) :
    hub'.stats.consumed = c'.accepted := by
  cases h with
  | accept => exact congrArg (· + 1) same
  | take | leave | reject | reset | offer | offerAfterReset | panic | refuse => exact same

/-- Consumption ends only when the queue is closed and empty. -/
theorem Stands.ended (stands : Stands w hub c sets) (renders : w.Renders)
    (h : c.Moves w hub hub' c') {e : Ending Nat} (ended : c'.point = .ended e) :
    e = .returned c'.accepted ∧ hub'.artifacts.closed ∧ hub'.artifacts.buffer = [] := by
  cases h with
  | leave _ closed buffer =>
      cases ended
      exact ⟨rfl, closed, buffer⟩
  | panic _ _ at_ => exact absurd rfl (stands.ends renders at_).2
  | take | reject | reset | offer | offerAfterReset | refuse | accept => cases ended

end Consumption

/-- Consumption, with the sets that others have pushed and what the check has found so far. -/
structure Showing where
  hub : Hub
  consumption : Consumption
  pushed : List ArtifactSet := []
  verdicts : List (ArtifactSet × Bool) := []

namespace Showing

def start (capacity : Nat) (expected : Option Nat) : Showing where
  hub := { work := { capacity }, artifacts := { capacity }, slots := 1 }
  consumption := { expectedFrames := expected }

/-- The sets that have passed the check, in their order. -/
def passed (f : Showing) : List ArtifactSet := Consumption.passing f.verdicts

/-- What others may do that concerns neither the sets nor the renderer. -/
structure Around (hub hub' : Hub) : Prop where
  now : hub.now ≤ hub'.now
  artifacts : hub'.artifacts = hub.artifacts
  calls : hub'.rendererCalls = hub.rendererCalls
  consumed : hub'.stats.consumed = hub.stats.consumed
  rejected : hub'.stats.rejected = hub.stats.rejected

inductive Event (w : World) (f : Showing) : Showing → Prop where
  | step {hub : Hub} {c : Consumption} : f.consumption.step w f.hub = some (hub, c) →
      Event w f { f with
        hub, consumption := c
        verdicts := f.verdicts ++ (f.consumption.verdict? f.hub).toList }
  | push {set : ArtifactSet} {artifacts : Queue ArtifactSet} :
      f.hub.artifacts.tryPush set = (.accepted, artifacts) →
      Event w f { f with hub := { f.hub with artifacts }, pushed := f.pushed ++ [set] }
  | close : Event w f { f with hub := { f.hub with artifacts := f.hub.artifacts.close } }
  | around {hub : Hub} : Around f.hub hub → Event w f { f with hub }

/-- What is kept while sets are shown. -/
structure Keeps (w : World) (f : Showing) : Prop where
  order : f.consumption.taken ++ f.hub.artifacts.buffer = f.pushed
  checked : f.verdicts.map (·.1) ++ f.consumption.underCheck?.toList = f.consumption.taken
  stands : f.consumption.Stands w f.hub f.passed
  consumed : f.hub.stats.consumed = f.consumption.accepted
  sound : f.consumption.Sound
  counted : f.consumption.taken.length =
    f.consumption.carried + f.hub.stats.consumed + f.hub.stats.rejected
  ended : ∀ e, f.consumption.point = .ended e → e = .returned f.consumption.accepted ∧
    f.hub.artifacts.closed ∧ f.hub.artifacts.buffer = []

variable {w : World} {f f' : Showing}

theorem keeps_start (w : World) (capacity : Nat) (expected : Option Nat) :
    Keeps w (start capacity expected) where
  order := rfl
  checked := rfl
  stands := .even rfl ⟨rfl, rfl, by simp [start, passed, Consumption.passing]⟩ rfl
  consumed := rfl
  sound := by simp [Consumption.Sound, start]
  counted := rfl
  ended := by simp [start]

theorem Keeps.step (keeps : Keeps w f) (renders : w.Renders) {hub : Hub} {c : Consumption}
    (moves : f.consumption.Moves w f.hub hub c) :
    Keeps w { f with
      hub, consumption := c
      verdicts := f.verdicts ++ (f.consumption.verdict? f.hub).toList } where
  order := moves.order.trans keeps.order
  checked := by
    rw [List.map_append, Consumption.verdict?_fst, keeps.checked, ← moves.taken]
  stands := keeps.stands.moves renders moves
  consumed := moves.accepted keeps.consumed
  sound := moves.sound keeps.sound
  counted := by
    have counters := moves.counters keeps.sound
    have counted := keeps.counted
    dsimp only
    omega
  ended _ ended := keeps.stands.ended renders moves ended

/-- What is not a step of consumption shows nothing. -/
theorem Keeps.congr {hub : Hub} {pushed : List ArtifactSet} (keeps : Keeps w f)
    (order : f.consumption.taken ++ hub.artifacts.buffer = pushed)
    (calls : hub.rendererCalls = f.hub.rendererCalls)
    (consumed : hub.stats.consumed = f.hub.stats.consumed)
    (rejected : hub.stats.rejected = f.hub.stats.rejected)
    (ended : f.hub.artifacts.closed → hub.artifacts.closed ∧
      (f.hub.artifacts.buffer = [] → hub.artifacts.buffer = [])) :
    Keeps w { f with hub, pushed } where
  order := order
  checked := keeps.checked
  stands := keeps.stands.congr calls
  consumed := consumed.trans keeps.consumed
  sound := keeps.sound
  counted := by
    dsimp only
    rw [consumed, rejected]
    exact keeps.counted
  ended e at_ := by
    obtain ⟨returned, closed, buffer⟩ := keeps.ended e at_
    exact ⟨returned, (ended closed).1, (ended closed).2 buffer⟩

theorem Keeps.event (keeps : Keeps w f) (renders : w.Renders) (h : Event w f f') : Keeps w f' := by
  cases h with
  | step stepped => exact keeps.step renders (Consumption.moves_of_step stepped)
  | push pushed =>
      cases Queue.effect_of_tryPush pushed with
      | push set opened _ eq =>
          subst eq
          refine keeps.congr ?_ rfl rfl rfl (by simp [opened])
          rw [← keeps.order, List.append_assoc]
  | close => exact keeps.congr keeps.order rfl rfl rfl fun _ => ⟨rfl, id⟩
  | around around =>
      refine keeps.congr ?_ around.calls around.consumed around.rejected ?_
      · rw [around.artifacts, keeps.order]
      · rw [around.artifacts]
        exact fun closed => ⟨closed, id⟩

theorem Keeps.reached (keeps : Keeps w f) (renders : w.Renders)
    (reached : Relation.ReflTransGen (Event w) f f') : Keeps w f' := by
  induction reached with
  | refl => exact keeps
  | tail _ event ih => exact ih.event renders event

/-- What holds at any time of the sets that were pushed and of the renderer's calls. -/
structure Presents (w : World) (f : Showing) : Prop where
  order : f.verdicts.map (·.1) <+: f.pushed
  cues : f.hub.rendererCalls.map RendererCall.cue = w.script f.passed ∨
    ∃ set due reply, f.consumption.point = .resetting set due reply ∧ f.passed = [set] ∧
      f.hub.rendererCalls.map RendererCall.cue = [.reset]
  numbers : w.seqsTaken f.passed = List.range' 1 (w.countTaken f.passed)
  consumed : f.consumption.isShowing = false → f.hub.stats.consumed = w.countTaken f.passed
  counted : f.hub.stats.consumed + f.hub.stats.rejected + f.consumption.held?.toList.length +
    f.hub.artifacts.buffer.length = f.pushed.length
  resetFails : ∀ set due messages, f.consumption.point = .resetting set due (.fails messages) →
    isDue f.hub.now due → f.consumption.step w f.hub = some (f.consumption.offer w f.hub set)
  refuses : ∀ set due messages, f.consumption.point = .accepting set due (.fails messages) →
    isDue f.hub.now due → f.consumption.step w f.hub =
      some (f.hub.count Stats.addRejected, { f.consumption with point := .idle })
  ended : ∀ e, f.consumption.point = .ended e → e = .returned (w.countTaken f.passed) ∧
    f.hub.stats.consumed = w.countTaken f.passed ∧
    f.hub.stats.rejected + w.countTaken f.passed = f.pushed.length ∧
    f.verdicts.map (·.1) = f.pushed ∧ f.hub.artifacts.closed
  waits : f.consumption.step w f.hub = none →
    (∃ set due reply, (f.consumption.point = .resetting set due reply ∨
        f.consumption.point = .accepting set due reply) ∧ isDue f.hub.now due = false) ∨
      f.consumption.Held f.hub ∨ f.consumption.Over

/-- Every set that was pushed waits in the queue, is held or was counted. -/
theorem Keeps.counts (keeps : Keeps w f) :
    f.hub.stats.consumed + f.hub.stats.rejected + f.consumption.held?.toList.length +
      f.hub.artifacts.buffer.length = f.pushed.length := by
  have unbroken : f.consumption.lost = none := by
    cases lost : f.consumption.lost with
    | none => rfl
    | some set =>
        have broken := keeps.sound (by rw [lost]; rfl)
        obtain at_ | at_ := broken <;> cases (keeps.ended _ at_).1
  have counted := keeps.counted
  rw [Consumption.carried, unbroken] at counted
  rw [← keeps.order, List.length_append, counted]
  simp only [Option.toList_none, List.length_nil]
  omega

theorem Keeps.presents (keeps : Keeps w f) : Presents w f where
  order := by
    rw [← keeps.order, ← keeps.checked, List.append_assoc]
    exact List.prefix_append _ _
  cues := by
    cases keeps.stands with
    | even _ played | accepting _ _ _ _ _ played => exact .inl played.cues
    | resetting set due reply at_ _ only cues => exact .inr ⟨set, _, reply, at_, only, cues⟩
  numbers := w.seqsTaken_eq_range' _
  consumed quiet := keeps.consumed.trans (keeps.stands.even_of_quiet quiet).2
  counted := keeps.counts
  resetFails set due messages at_ now := by simp [Consumption.step, at_, now]
  refuses set due messages at_ now := by simp [Consumption.step, at_, now]
  ended e at_ := by
    obtain ⟨returned, closed, buffer⟩ := keeps.ended e at_
    have quiet : f.consumption.isShowing = false := by simp [Consumption.isShowing, at_]
    have accepted := (keeps.stands.even_of_quiet quiet).2
    have consumed := keeps.consumed.trans accepted
    have counts := keeps.counts
    simp only [Consumption.held?, at_, buffer, Option.toList_none, List.length_nil] at counts
    have checked := keeps.checked
    simp only [Consumption.underCheck?, at_, Option.toList_none, List.append_nil] at checked
    have order := keeps.order
    rw [buffer, List.append_nil] at order
    exact ⟨accepted ▸ returned, consumed, by omega, checked.trans order, closed⟩
  waits := Consumption.step_eq_none

/-- A run in which there is only consumption. -/
def run (s : Settings) (f : Showing) : Run :=
  { settings := s, hub := f.hub, consumption := some f.consumption }

def late (time : Nat) (f : Showing) : Showing := { f with hub := { f.hub with now := time } }

theorem event_late {time : Nat} (later : f.hub.now ≤ time) : Event w f (f.late time) :=
  .around ⟨later, rfl, rfl, rfl, rfl⟩

variable {s : Settings}

theorem moves_of_stepTask {r' : Run} {action : Run.Action}
    (stepped : (f.run s).stepTask w action = some r') :
    ∃ f', Event w f f' ∧ r' = f'.run s ∧
      f.consumption.Moves w f.hub f'.hub f'.consumption := by
  cases action with
  | consumption =>
      obtain ⟨⟨hub, c⟩, own, eq⟩ := Option.bind_eq_some_iff.mp stepped
      exact ⟨_, .step own, (Option.some.inj eq).symm, Consumption.moves_of_step own⟩
  | supervisor signal => cases signal <;> cases stepped
  | discovery | worker | lone | collector | cancel | tick => cases stepped

/-- Consumption can go on until it has returned, once the queue is closed. -/
theorem Keeps.moves (keeps : Keeps w f) (renders : w.Renders) (closed : f.hub.artifacts.closed)
    (running : ¬f.consumption.Over) : ∃ r', Run.Move w (f.run s) r' := by
  -- the time that consumption waits for, if it waits for any
  let time := max f.hub.now (f.consumption.nextDue.getD 0)
  have ready : f.consumption.step w (f.late time).hub ≠ none := by
    intro held
    obtain ⟨set, due, reply, at_, early⟩ | ⟨_, _, open_⟩ | over_ := Consumption.step_eq_none held
    · obtain ⟨t, rfl⟩ := Option.isSome_iff_exists.mp (keeps.stands.ends renders at_).1
      obtain at_ | at_ := at_ <;> simp [late, time, isDue, Consumption.nextDue, at_] at early
    · have open_ : f.hub.artifacts.closed = false := open_
      simp [closed] at open_
    · exact running over_
  obtain ⟨⟨hub, c⟩, stepped⟩ := Option.ne_none_iff_exists'.mp ready
  refine ⟨{ f.run s with hub, consumption := some c },
    .task .consumption time (Nat.le_max_left ..) ?_⟩
  exact Option.bind_eq_some_iff.mpr ⟨(hub, c), stepped, rfl⟩

/-- A run that comes about from here by events, in which consumption has returned. -/
def Returned (w : World) (s : Settings) (f : Showing) (r : Run) : Prop :=
  ∃ f', Relation.ReflTransGen (Event w) f f' ∧ Presents w f' ∧ r = f'.run s ∧
    ∃ n, f'.consumption.point = .ended (.returned n)

/-- Once the queue is closed, consumption that is left to itself comes to its end. -/
theorem Keeps.inevitable (keeps : Keeps w f) (renders : w.Renders)
    (closed : f.hub.artifacts.closed) (s : Settings) :
    Run.Inevitable w (Returned w s f) (f.run s) := by
  refine Run.inevitable_of_potential
    (fun r => ∃ f', Relation.ReflTransGen (Event w) f f' ∧ f'.hub.artifacts.closed ∧ r = f'.run s) _
    (fun r => r.hub.weight s.retry + (r.consumption.map Consumption.weight).getD 0)
    ?_ ?_ ?_ (fun _ _ => rfl) _ ⟨f, .refl, closed, rfl⟩
  case refine_1 =>
    rintro _ ⟨f', reached, closed, rfl⟩ unfinished
    have keeps' := keeps.reached renders reached
    refine keeps'.moves renders closed ?_
    rintro ⟨e, ended⟩
    obtain ⟨rfl, _⟩ := keeps'.ended e ended
    exact unfinished ⟨f', reached, keeps'.presents, rfl, _, ended⟩
  case refine_2 =>
    rintro _ r' ⟨f', reached, closed, rfl⟩ _ move
    cases move with
    | task action time later stepped =>
        obtain ⟨f'', event, rfl, moves⟩ := moves_of_stepTask (f := f'.late time) stepped
        refine ⟨f'', (reached.tail (event_late later)).tail event, ?_, rfl⟩
        exact moves.kept.artifacts_closed.trans closed
    | wait time due _ later _ =>
        exact ⟨f'.late time, reached.tail (event_late (Nat.le_of_lt later)), closed, rfl⟩
  case refine_3 =>
    rintro _ r' action time ⟨f', _, _, rfl⟩ _ stepped
    obtain ⟨f'', _, rfl, moves⟩ := moves_of_stepTask (f := f'.late time) stepped
    exact moves.weight_lt s.retry

/-- The renderer is reset before the first set that passes and shown each that passes, in order and
under the number after those it has taken; consumption returns how many it has taken. -/
theorem presents_what_passes (w : World) (renders : w.Renders) (s : Settings) (capacity : Nat)
    (expected : Option Nat)
    (reached : Relation.ReflTransGen (Event w) (start capacity expected) f) :
    Presents w f ∧
      (f.hub.artifacts.closed → Run.Inevitable w (Returned w s f) (f.run s)) := by
  have keeps := (keeps_start w capacity expected).reached renders reached
  exact ⟨keeps.presents, fun closed => keeps.inevitable renders closed s⟩

/-- A renderer that cannot be reset and refuses the first set that it is shown. -/
def hesitantWorld : World where
  catalog _ := ⟨none, .panics⟩
  decoder _ _ := { delay := none, reply := .panics, heeds := false }
  reset := ⟨some 0, .fails ["no manifest"]⟩
  accept i _ := ⟨some 0, if i = 0 then .fails ["busy"] else .gives ()⟩

def framed : ArtifactSet := ⟨"a", ["/o/a_dec_0000.ply"], Instant.epoch, 1⟩

def blank : ArtifactSet := ⟨"b", [], Instant.epoch, 1⟩

/-- Of three sets the second does not pass, and the first is refused. -/
theorem presents_what_passes_hesitantly :
    hesitantWorld.Renders ∧ ∃ f, Relation.ReflTransGen (Event hesitantWorld) (start 3 none) f ∧
      f.pushed = [framed, blank, framed] ∧ f.passed = [framed, framed] ∧
      f.hub.artifacts.closed ∧ f.consumption.point = .ended (.returned 1) ∧
      f.hub.rendererCalls.map RendererCall.cue = [.reset, .accept 1 framed, .accept 1 framed] ∧
      Presents hesitantWorld f ∧
      Run.Inevitable hesitantWorld (Returned hesitantWorld {} f) (f.run {}) := by
  have renders : hesitantWorld.Renders := by
    refine ⟨⟨rfl, by simp [hesitantWorld]⟩, fun i set => ⟨rfl, ?_⟩⟩
    simp only [hesitantWorld]
    split <;> simp
  let hub : Hub := { (start 3 none).hub with present := framed.files }
  have there :
      Relation.ReflTransGen (Event hesitantWorld) (start 3 none) { start 3 none with hub } :=
    .single (.around ⟨Nat.le_refl _, rfl, rfl, rfl, rfl⟩)
  have first := there.tail (.push (rfl : Queue.tryPush _ framed = (.accepted, _)))
  have second := first.tail (.push (rfl : Queue.tryPush _ blank = (.accepted, _)))
  have pushed := second.tail (.push (rfl : Queue.tryPush _ framed = (.accepted, _)))
  have closed := pushed.tail .close
  have shown := ((closed.tail (.step rfl)).tail (.step rfl)).tail (.step rfl)
  have refused := shown.tail (.step rfl)
  have rejected := (refused.tail (.step rfl)).tail (.step rfl)
  have accepted := ((rejected.tail (.step rfl)).tail (.step rfl)).tail (.step rfl)
  have ended := accepted.tail (.step rfl)
  obtain ⟨presents, comes⟩ := presents_what_passes hesitantWorld renders {} 3 none ended
  exact ⟨renders, _, ended, rfl, rfl, rfl, rfl, rfl, presents, comes rfl⟩

end Showing

end DecodePipeline
