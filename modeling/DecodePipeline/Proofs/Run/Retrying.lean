import DecodePipeline.Proofs.Run.Progress

/-!
The attempts on one item, by what the decoder makes of its calls. They go on until a call decides
the item's fate, with a pause after each other one. Other tasks may meanwhile take and free slots,
change all that is shared and cancel the run; a cancellation between two calls ends the attempts.
-/

namespace DecodePipeline

/-- What the decoder makes of its calls for one item, of which the first is call 1. -/
structure Tape where
  delay : Nat → Nat
  result : Nat → Except Fault Decoded

namespace Tape

def reply (tape : Tape) (i : Nat) : Reply Fault Decoded :=
  match tape.result i with
  | .ok out => .gives out
  | .error fault => .fails fault

/-- The calls for an id are those on the tape, after so many that were made before. -/
def Answers (tape : Tape) (w : World) (timeout : Span) (id : String) (before : Nat) : Prop :=
  ∀ i, Attempts.limited timeout (w.decoder id (before + i)) =
    ⟨some (tape.delay (i + 1)), tape.reply (i + 1)⟩

/-- After this call there need not be another: it gave files or failed for good, or no more are
allowed. -/
def Decisive (tape : Tape) (policy : RetryPolicy) (i : Nat) : Prop :=
  1 ≤ i ∧ ((∃ out, tape.result i = .ok out) ∨
    (∃ fault, tape.result i = .error fault ∧ fault.isRetryable = false) ∨
    i = max 1 policy.maxAttempts)

/-- The error that is known before a call: that of the call before it. -/
def lastError (tape : Tape) : Nat → Option String
  | 0 | 1 => none
  | i + 2 =>
    match tape.result (i + 1) with
    | .ok _ => none
    | .error fault => some fault.message

/-- The item as a call sees it. -/
def seen (tape : Tape) (item : WorkItem) (i : Nat) : WorkItem :=
  { item with status := .transforming, attempt := i, lastError := tape.lastError i }

/-- What a call makes of the item if it is the last one. -/
def verdict (tape : Tape) (item : WorkItem) (k : Nat) : Attempts.Outcome :=
  match tape.result k with
  | .ok out => .transformed ⟨item.id, out.files, Instant.epoch, k⟩
  | .error fault =>
    if fault.isCancelled then .cancelled
    else
      .failed { item with status := .failed, attempt := k, lastError := some fault.message } fault

/-- From when on another call may follow this one. -/
def nextCallFrom (tape : Tape) (policy : RetryPolicy) (call : DecoderCall) : Nat :=
  call.time + tape.delay call.attempt + policy.delayMs call.attempt

variable {tape : Tape} {policy : RetryPolicy} {item : WorkItem} {i k n : Nat} {fault : Fault}

theorem exists_isLeast_decisive (tape : Tape) (policy : RetryPolicy) :
    ∃ k, IsLeast {i | tape.Decisive policy i} k := by
  classical
  have last : ∃ i, tape.Decisive policy i := ⟨_, Nat.le_max_left 1 _, .inr (.inr rfl)⟩
  exact ⟨Nat.find last, Nat.find_spec last, fun _ => Nat.find_min' last⟩

theorem le_of_undecided (undecided : ∀ j < i, ¬tape.Decisive policy j) :
    i ≤ max 1 policy.maxAttempts :=
  Nat.le_of_not_lt fun beyond =>
    undecided _ beyond ⟨Nat.le_max_left .., .inr (.inr rfl)⟩

/-- A call is decisive exactly if the policy allows no other after it. -/
theorem decisive_iff_of_error (undecided : ∀ j < i, ¬tape.Decisive policy j) (pos : 1 ≤ i)
    (failed : tape.result i = .error fault) :
    tape.Decisive policy i ↔ (fault.isRetryable && policy.shouldRetry i) = false := by
  have within := le_of_undecided undecided
  simp only [Decisive, failed, reduceCtorEq, exists_false, Except.error.injEq, exists_eq_left',
    false_or, RetryPolicy.shouldRetry, Bool.and_eq_false_iff, decide_eq_false_iff_not]
  constructor
  · rintro ⟨_, final | last⟩
    · exact .inl final
    · exact .inr (by omega)
  · rintro (final | last)
    · exact ⟨pos, .inl final⟩
    · exact ⟨pos, .inr (by omega)⟩

theorem isLeast_of_undecided (undecided : ∀ j < i, ¬tape.Decisive policy j)
    (decisive : tape.Decisive policy i) : IsLeast {i | tape.Decisive policy i} i :=
  ⟨decisive, fun j other => Nat.le_of_not_lt fun earlier => undecided j earlier other⟩

theorem seen_first (new : item.attempt = 0) (clean : item.lastError = none) :
    tape.seen item 1 = item.begun := by
  simp [seen, WorkItem.begun, lastError, new, clean]

theorem seen_next (pos : 1 ≤ i) (failed : tape.result i = .error fault) :
    tape.seen item (i + 1) = ((tape.seen item i).noted fault.message).begun := by
  obtain ⟨i, rfl⟩ := Nat.exists_eq_succ_of_ne_zero (Nat.ne_of_gt pos)
  simp [seen, WorkItem.begun, WorkItem.noted, lastError, failed]

theorem result_of_gives {out : Decoded} (gives : .gives out = tape.reply i) :
    tape.result i = .ok out := by
  unfold reply at gives
  split at gives <;> cases gives
  assumption

theorem result_of_fails (fails : .fails fault = tape.reply i) : tape.result i = .error fault := by
  unfold reply at fails
  split at fails <;> cases fails
  assumption

theorem reply_ne_panics (tape : Tape) (i : Nat) : tape.reply i ≠ .panics := by
  unfold reply
  split <;> simp

end Tape

namespace Attempts

/-- How the attempts on an item stand after so many calls, of which the last is known. -/
inductive Stands (tape : Tape) (policy : RetryPolicy) (item : WorkItem) (hub : Hub) (n : Nat)
    (last : Option DecoderCall) : Attempts → Prop where
  | waiting : (∀ i < n + 1, ¬tape.Decisive policy i) →
      (∀ call ∈ last, tape.nextCallFrom policy call ≤ hub.now) →
      Stands tape policy item hub n last (.waiting (tape.seen item (n + 1)))
  | calling (heeds : Bool) (call : DecoderCall) : (∀ i < n, ¬tape.Decisive policy i) →
      last = some call → call.attempt = n → 1 ≤ n →
      Stands tape policy item hub n last
        (.calling (tape.seen item n) (some (call.time + tape.delay n)) heeds (tape.reply n))
  | pausing (fault : Fault) (due : Nat) : (∀ i < n + 1, ¬tape.Decisive policy i) →
      1 ≤ n → tape.result n = .error fault →
      (∀ call ∈ last, tape.nextCallFrom policy call ≤ due) →
      Stands tape policy item hub n last (.pausing ((tape.seen item n).noted fault.message) due)
  | decided : IsLeast {i | tape.Decisive policy i} n →
      Stands tape policy item hub n last (.ended (tape.verdict item n))
  | cutShort : (∀ i < n, ¬tape.Decisive policy i) → hub.cancelled →
      Stands tape policy item hub n last (.ended .cancelled)

/-- The record of the calls for an item: they are numbered from 1, and no two of them are closer
than the time that the first takes and the pause after it. -/
structure Made (tape : Tape) (policy : RetryPolicy) (id : String) (before : List DecoderCall)
    (hub : Hub) (calls : List DecoderCall) : Prop where
  record : hub.decoderCalls.filter (·.id = id) = before ++ calls
  numbered : calls.map (·.attempt) = List.range' 1 calls.length
  spaced : calls.IsChain fun call next => tape.nextCallFrom policy call ≤ next.time

/-- What others may do around the attempts on an item. -/
structure Around (id : String) (hub hub' : Hub) : Prop where
  now : hub.now ≤ hub'.now
  cancelled : hub.cancelled → hub'.cancelled
  calls : hub'.decoderCalls.filter (·.id = id) = hub.decoderCalls.filter (·.id = id)

variable {w : World} {policy : RetryPolicy} {timeout : Span} {tape : Tape} {item item' : WorkItem}
  {id : String} {hub hub' : Hub} {a a' : Attempts} {before calls : List DecoderCall} {n : Nat}
  {last : Option DecoderCall} {due : Option Nat} {heeds : Bool} {reply : Reply Fault Decoded}

theorem Made.callsFor (made : Made tape policy id before hub calls) :
    hub.callsFor id = before.length + calls.length := by
  rw [Hub.callsFor, made.record, List.length_append]

theorem Made.congr (made : Made tape policy id before hub calls)
    (same : hub'.decoderCalls.filter (·.id = id) = hub.decoderCalls.filter (·.id = id)) :
    Made tape policy id before hub' calls :=
  ⟨same.trans made.record, made.numbered, made.spaced⟩

/-- The next call joins the record if the pause before it is over. -/
theorem Made.begin (made : Made tape policy item.id before hub calls)
    (rested : ∀ call ∈ calls.getLast?, tape.nextCallFrom policy call ≤ hub.now) :
    Made tape policy item.id before (hub.beginCall (tape.seen item (calls.length + 1)))
      (calls ++ [⟨hub.now, item.id, calls.length + 1⟩]) where
  record := by
    simp [Hub.beginCall, Tape.seen, List.filter_append, made.record]
  numbered := by
    simp [made.numbered, List.range'_concat, Nat.add_comm]
  spaced := by
    refine made.spaced.append (List.isChain_singleton _) fun call last next first => ?_
    obtain rfl : next = _ := (Option.some.inj first).symm
    exact rested call last

theorem Made.nextCall (made : Made tape policy item.id before hub calls)
    (answers : tape.Answers w timeout item.id before.length) :
    nextCall w timeout hub (tape.seen item (calls.length + 1)) =
      ⟨some (tape.delay (calls.length + 1)), tape.reply (calls.length + 1)⟩ := by
  have id : (tape.seen item (calls.length + 1)).id = item.id := rfl
  rw [Attempts.nextCall, id, made.callsFor, answers]

theorem Stands.around (stands : Stands tape policy item hub n last a)
    (around : Around id hub hub') : Stands tape policy item hub' n last a := by
  cases stands with
  | waiting undecided rested =>
      exact .waiting undecided fun call last => Nat.le_trans (rested call last) around.now
  | calling heeds call undecided latest numbered pos =>
      exact .calling heeds call undecided latest numbered pos
  | pausing fault due undecided pos failed rested =>
      exact .pausing fault due undecided pos failed rested
  | decided least => exact .decided least
  | cutShort undecided cancelled => exact .cutShort undecided (around.cancelled cancelled)

/-- A running call is the one that the tape has at its number. -/
theorem Stands.call (stands : Stands tape policy item hub n last (.calling item' due heeds reply)) :
    (∀ i < n, ¬tape.Decisive policy i) ∧ 1 ≤ n ∧ item' = tape.seen item n ∧ reply = tape.reply n ∧
      ∃ call, last = some call ∧ call.attempt = n ∧ due = some (call.time + tape.delay n) := by
  cases stands with
  | calling _ call undecided latest numbered pos =>
      exact ⟨undecided, pos, rfl, rfl, call, latest, numbered, rfl⟩

theorem Moves.decoderCalls_of_calling
    (moves : Moves w policy timeout hub (.calling item' due heeds reply) hub' a') :
    hub'.decoderCalls = hub.decoderCalls := by
  cases moves <;> rfl

/-- What follows a call, by the tape. -/
theorem Stands.call_ends
    (stands : Stands tape policy item hub n last (.calling item' due heeds reply))
    (moves : Moves w policy timeout hub (.calling item' due heeds reply) hub' a') :
    Stands tape policy item hub' n last a' := by
  obtain ⟨undecided, pos, rfl, answer, call, latest, numbered, rfl⟩ := stands.call
  have decided (decisive : tape.Decisive policy n) :
      Stands tape policy item hub' n last (.ended (tape.verdict item n)) :=
    .decided (Tape.isLeast_of_undecided undecided decisive)
  cases moves with
  | heed _ _ _ cancelled => exact .cutShort undecided cancelled
  | panic => exact absurd answer.symm (tape.reply_ne_panics n)
  | succeed _ _ _ out now =>
      have result := Tape.result_of_gives answer
      have verdict := decided ⟨pos, .inl ⟨out, result⟩⟩
      simp only [Tape.verdict, result] at verdict
      exact verdict
  | replyCancelled _ _ _ now =>
      have result := Tape.result_of_fails answer
      have verdict := decided ⟨pos, .inr (.inl ⟨_, result, rfl⟩)⟩
      simp only [Tape.verdict, result] at verdict
      exact verdict
  | fail _ _ _ fault now other enough =>
      have result := Tape.result_of_fails answer
      have verdict := decided ((Tape.decisive_iff_of_error undecided pos result).mpr enough)
      simp only [Tape.verdict, result, other] at verdict
      exact verdict
  | retry _ _ _ fault now other again =>
      have result := Tape.result_of_fails answer
      -- the policy allows another call, so this one was not decisive
      have goesOn : ¬tape.Decisive policy n := by
        rw [Tape.decisive_iff_of_error undecided pos result]
        exact Bool.not_eq_false _ ▸ again
      refine .pausing fault _ (fun i le => ?_) pos result fun call' latest' => ?_
      · obtain lt | rfl := Nat.lt_succ_iff_lt_or_eq.mp le
        · exact undecided i lt
        · exact goesOn
      · obtain rfl : call = call' := by simpa [latest] using latest'
        have ended : call.time + tape.delay n ≤ hub.now := by simpa [isDue] using now.1
        simp only [Tape.nextCallFrom, numbered, Tape.seen]
        omega

/-- A step leads from one stand to the next, and begins no call once the run is cancelled. -/
theorem Stands.moves (stands : Stands tape policy item hub calls.length calls.getLast? a)
    (made : Made tape policy item.id before hub calls)
    (answers : tape.Answers w timeout item.id before.length)
    (moves : Moves w policy timeout hub a hub' a') :
    ∃ calls', Made tape policy item.id before hub' calls' ∧
      Stands tape policy item hub' calls'.length calls'.getLast? a' ∧
      (hub.cancelled → calls' = calls) := by
  have cut {n : Nat} (undecided : ∀ i < n + 1, ¬tape.Decisive policy i) :
      ∀ i < n, ¬tape.Decisive policy i :=
    fun i lt => undecided i (by omega)
  cases stands with
  | waiting undecided rested =>
      cases moves with
      | call _ live free =>
          refine ⟨_, made.begin rested, ?_, by simp [live]⟩
          rw [made.nextCall answers, List.length_append, List.length_singleton,
            List.getLast?_concat]
          exact .calling _ _ undecided rfl rfl (Nat.succ_pos _)
      | giveUpWaiting _ cancelled =>
          exact ⟨calls, made, .cutShort (cut undecided) cancelled, fun _ => rfl⟩
  | calling heeds call undecided latest numbered pos =>
      have stands : Stands tape policy item hub calls.length calls.getLast? _ :=
        .calling heeds call undecided latest numbered pos
      have same := congrArg (List.filter (·.id = item.id)) moves.decoderCalls_of_calling
      exact ⟨calls, made.congr same, stands.call_ends moves, fun _ => rfl⟩
  | pausing fault due undecided pos failed rested =>
      cases moves with
      | resume _ _ live now =>
          rw [← Tape.seen_next pos failed]
          have rested' := fun call latest => Nat.le_trans (rested call latest) now
          exact ⟨calls, made, .waiting undecided rested', fun _ => rfl⟩
      | giveUpPausing _ _ cancelled =>
          exact ⟨calls, made, .cutShort (cut undecided) cancelled, fun _ => rfl⟩
  | decided | cutShort => cases moves

/-- No call runs, and the item's fate is not decided. -/
def Between : Attempts → Prop
  | .waiting _ | .pausing _ _ => True
  | .calling _ _ _ _ | .ended _ => False

theorem step_of_cancelled (between : a.Between) (cancelled : hub.cancelled) :
    a.step w policy timeout hub = some (hub, .ended .cancelled) := by
  cases a with
  | waiting | pausing => simp [step, cancelled]
  | calling | ended => exact between.elim

theorem step_pausing_eq_none_iff {due : Nat} (live : hub.cancelled = false) :
    (Attempts.pausing item due).step w policy timeout hub = none ↔ hub.now < due := by
  simp [step, live]

/-- The pause after a call is what the policy says for the number of that call. -/
theorem Stands.pause (stands : Stands tape policy item hub n last a) {due : Nat}
    (moves : Moves w policy timeout hub a hub' (.pausing item' due)) :
    due = hub.now + policy.delayMs n := by
  cases moves with
  | retry =>
      obtain ⟨_, _, rfl, _⟩ := stands.call
      rfl

theorem Stands.attempt_le (stands : Stands tape policy item hub n last a)
    (holds : a.item? = some item') : item'.attempt ≤ max 1 policy.maxAttempts := by
  cases stands with
  | waiting undecided | pausing _ _ undecided =>
      cases holds
      have := Tape.le_of_undecided undecided
      simp only [Tape.seen, WorkItem.noted]
      omega
  | calling _ _ undecided =>
      cases holds
      exact Tape.le_of_undecided undecided
  | decided | cutShort => cases holds

theorem Stands.le_least (stands : Stands tape policy item hub n last a) {k : Nat}
    (least : IsLeast {i | tape.Decisive policy i} k) : n ≤ k := by
  have within (undecided : ∀ i < n, ¬tape.Decisive policy i) : n ≤ k :=
    Nat.le_of_not_lt fun lt => undecided k lt least.1
  cases stands with
  | waiting undecided | pausing _ _ undecided => exact within fun i lt => undecided i (by omega)
  | calling _ _ undecided | cutShort undecided => exact within undecided
  | decided least' => exact (least'.unique least).le

end Attempts

namespace Run

open Attempts

/-- A run in which there are only the attempts on one item. -/
def alone (s : Settings) (hub : Hub) (a : Attempts) : Run :=
  { settings := s, hub, lone := some a }

/-- The attempts on an item make a step, or others do something around them. -/
inductive Proceeds (w : World) (id : String) (r : Run) : Run → Prop where
  | step {r' : Run} : r.stepLone w = some r' → Proceeds w id r r'
  | around {hub : Hub} : Around id r.hub hub → Proceeds w id r { r with hub }

/-- The attempts on an item follow the tape. -/
structure Follows (tape : Tape) (s : Settings) (item : WorkItem) (before : List DecoderCall)
    (r : Run) (calls : List DecoderCall) (a : Attempts) : Prop where
  settings : r.settings = s
  lone : r.lone = some a
  made : Made tape s.retry item.id before r.hub calls
  stands : Stands tape s.retry item r.hub calls.length calls.getLast? a

variable {w : World} {s : Settings} {tape : Tape} {item : WorkItem} {hub : Hub} {r r' : Run}
  {a : Attempts} {before calls : List DecoderCall}

theorem follows_begin (tape : Tape) (s : Settings) (hub : Hub) (new : item.attempt = 0)
    (clean : item.lastError = none) :
    Follows tape s item (hub.decoderCalls.filter (·.id = item.id)) (alone s hub (.begin item)) []
      (.begin item) where
  settings := rfl
  lone := rfl
  made := ⟨(List.append_nil _).symm, rfl, .nil⟩
  stands := by
    rw [Attempts.begin, ← tape.seen_first new clean]
    refine .waiting (fun i lt decisive => ?_) (by simp)
    have pos := decisive.1
    simp only [List.length_nil] at lt
    omega

theorem Follows.step_eq (follows : Follows tape s item before r calls a)
    (stepped : r.stepLone w = some r') :
    ∃ hub a', a.step w s.retry s.transformTimeout r.hub = some (hub, a') ∧
      r' = { r with hub, lone := some a' } := by
  simp only [stepLone, follows.lone, bind, Option.bind_some] at stepped
  obtain ⟨⟨hub, a'⟩, stepped, eq⟩ := Option.bind_eq_some_iff.mp stepped
  exact ⟨hub, a', follows.settings ▸ stepped, (Option.some.inj eq).symm⟩

/-- Once the run is cancelled no call begins, and attempts between two calls come to their end. -/
theorem Follows.proceeds (follows : Follows tape s item before r calls a)
    (answers : tape.Answers w s.transformTimeout item.id before.length)
    (h : Proceeds w item.id r r') :
    ∃ calls' a', Follows tape s item before r' calls' a' ∧
      (r.hub.cancelled → r'.hub.cancelled ∧ calls' = calls ∧
        (a.Between ∨ a = .ended .cancelled → a' = a ∨ a' = .ended .cancelled)) := by
  cases h with
  | step stepped =>
      obtain ⟨hub, a', own, rfl⟩ := follows.step_eq stepped
      have moves := moves_of_step own
      obtain ⟨calls', made, stands, quiet⟩ := follows.stands.moves follows.made answers moves
      refine ⟨calls', a', ⟨follows.settings, rfl, made, stands⟩, fun cancelled => ?_⟩
      refine ⟨moves.alike.cancelled.trans cancelled, quiet cancelled, ?_⟩
      rintro (between | rfl)
      · rw [step_of_cancelled between cancelled] at own
        cases own
        exact .inr rfl
      · cases moves
  | around around =>
      refine ⟨calls, a, ⟨follows.settings, follows.lone, follows.made.congr around.calls,
        follows.stands.around around⟩, fun cancelled => ?_⟩
      exact ⟨around.cancelled cancelled, rfl, fun _ => .inl rfl⟩

theorem Follows.reached (follows : Follows tape s item before r calls a)
    (answers : tape.Answers w s.transformTimeout item.id before.length)
    (reached : Relation.ReflTransGen (Proceeds w item.id) r r') :
    ∃ calls' a', Follows tape s item before r' calls' a' ∧
      (r.hub.cancelled → r'.hub.cancelled ∧ calls' = calls ∧
        (a.Between ∨ a = .ended .cancelled → a' = a ∨ a' = .ended .cancelled)) := by
  induction reached with
  | refl => exact ⟨calls, a, follows, fun cancelled => ⟨cancelled, rfl, fun _ => .inl rfl⟩⟩
  | tail _ event ih =>
      obtain ⟨calls', a', follows', quiet⟩ := ih
      obtain ⟨calls'', a'', follows'', quiet'⟩ := follows'.proceeds answers event
      refine ⟨calls'', a'', follows'', fun cancelled => ?_⟩
      obtain ⟨still, rfl, stays⟩ := quiet cancelled
      obtain ⟨token, rfl, stays'⟩ := quiet' still
      refine ⟨token, rfl, fun between => ?_⟩
      obtain rfl | rfl := stays between
      · exact stays' between
      · exact .inr ((stays' (.inr rfl)).elim id id)

/-- What holds at any time of the attempts on an item, if call `k` is the first decisive one. -/
structure Retries (w : World) (tape : Tape) (s : Settings) (item : WorkItem) (k : Nat)
    (before : List DecoderCall) (r : Run) (calls : List DecoderCall) (a : Attempts) : Prop where
  lone : r.lone = some a
  made : Made tape s.retry item.id before r.hub calls
  most : calls.length ≤ k
  sees : ∀ item' due heeds reply, a = .calling item' due heeds reply →
    1 ≤ calls.length ∧ item' = tape.seen item calls.length ∧ reply = tape.reply calls.length
  pauses : ∀ hub item' due,
    a.step w s.retry s.transformTimeout r.hub = some (hub, .pausing item' due) →
      due = r.hub.now + s.retry.delayMs calls.length
  resumes : ∀ item' due, a = .pausing item' due → r.hub.cancelled = false →
    (a.step w s.retry s.transformTimeout r.hub = none ↔ r.hub.now < due)
  ends : ∀ outcome, a = .ended outcome →
    calls.length = k ∧ outcome = tape.verdict item k ∨ r.hub.cancelled ∧ outcome = .cancelled
  cancelled : r.hub.cancelled → a.Between →
    a.step w s.retry s.transformTimeout r.hub = some (r.hub, .ended .cancelled) ∧
      ∀ r', Relation.ReflTransGen (Proceeds w item.id) r r' →
        r'.lone = some a ∨ r'.lone = some (.ended .cancelled)
  quiet : r.hub.cancelled → ∀ r', Relation.ReflTransGen (Proceeds w item.id) r r' →
    r'.hub.callsFor item.id = r.hub.callsFor item.id
  counts : s.retry.maxAttempts < Decimal.limit32 →
    ∀ item', a.item? = some item' → item'.attempt < Decimal.limit32
  waits : a.step w s.retry s.transformTimeout r.hub = none →
    (∃ item', a = .waiting item' ∧ r.hub.slots = 0) ∨
      (∃ item' due heeds reply, a = .calling item' due heeds reply ∧
        isDue r.hub.now due = false) ∨
      (∃ item' due, a = .pausing item' due ∧ r.hub.now < due) ∨ ∃ outcome, a = .ended outcome

theorem Follows.retries (follows : Follows tape s item before r calls a)
    (answers : tape.Answers w s.transformTimeout item.id before.length) {k : Nat}
    (least : IsLeast {i | tape.Decisive s.retry i} k) :
    Retries w tape s item k before r calls a where
  lone := follows.lone
  made := follows.made
  most := follows.stands.le_least least
  sees item' due heeds reply eq := by
    subst eq
    obtain ⟨_, pos, seen, reply, _⟩ := follows.stands.call
    exact ⟨pos, seen, reply⟩
  pauses hub item' due stepped := follows.stands.pause (moves_of_step stepped)
  resumes item' due eq live := by
    subst eq
    exact step_pausing_eq_none_iff live
  ends outcome eq := by
    subst eq
    cases follows.stands with
    | decided least' => exact .inl ⟨least'.unique least, by rw [least'.unique least]⟩
    | cutShort _ cancelled => exact .inr ⟨cancelled, rfl⟩
  cancelled cancelled between := by
    refine ⟨step_of_cancelled between cancelled, fun r' reached => ?_⟩
    obtain ⟨_, a', follows', quiet⟩ := follows.reached answers reached
    obtain ⟨_, _, stays⟩ := quiet cancelled
    rw [follows'.lone]
    obtain rfl | rfl := stays (.inl between)
    · exact .inl rfl
    · exact .inr rfl
  quiet cancelled r' reached := by
    obtain ⟨_, _, follows', quiet⟩ := follows.reached answers reached
    obtain ⟨_, rfl, _⟩ := quiet cancelled
    rw [follows'.made.callsFor, follows.made.callsFor]
  counts small item' holds :=
    Nat.lt_of_le_of_lt (follows.stands.attempt_le holds) (max_lt (by decide) small)
  waits := step_eq_none

/-- The attempts on an item when they are all that there is, not cancelled, and there is a slot. -/
structure LeftAlone (tape : Tape) (s : Settings) (item : WorkItem) (before : List DecoderCall)
    (hub : Hub) (calls : List DecoderCall) (a : Attempts) : Prop where
  follows : Follows tape s item before (alone s hub a) calls a
  live : hub.cancelled = false
  slots : 0 < hub.slots + a.isCalling.toNat

theorem moves_of_stepTask_alone {action : Action}
    (stepped : (alone s hub a).stepTask w action = some r') :
    ∃ hub' a', Moves w s.retry s.transformTimeout hub a hub' a' ∧ r' = alone s hub' a' := by
  cases action with
  | lone =>
      obtain ⟨⟨hub', a'⟩, own, eq⟩ := Option.bind_eq_some_iff.mp stepped
      exact ⟨hub', a', moves_of_step own, (Option.some.inj eq).symm⟩
  | supervisor signal => cases signal <;> cases stepped
  | discovery | worker | consumption | collector | cancel | tick => cases stepped

/-- Attempts that nobody disturbs can go on until the item's fate is decided. -/
theorem LeftAlone.moves (leftAlone : LeftAlone tape s item before hub calls a)
    (going : a.outcome? = none) : ∃ r', Move w (alone s hub a) r' := by
  -- the time that the attempts wait for, if they wait for any
  let time := max hub.now (a.nextDue.getD 0)
  have ready : a.step w s.retry s.transformTimeout { hub with now := time } ≠ none := by
    intro held
    obtain ⟨_, rfl, none⟩ | ⟨_, due, _, _, rfl, later⟩ | ⟨_, due, rfl, later⟩ | ⟨_, rfl⟩ :=
      step_eq_none held
    · have slots := leftAlone.slots
      dsimp only at none
      simp [none, isCalling] at slots
    · obtain ⟨_, _, _, _, _, _, _, rfl⟩ := leftAlone.follows.stands.call
      simp [time, isDue, nextDue] at later
    · simp [time, nextDue] at later
    · cases going
  obtain ⟨⟨hub', a'⟩, stepped⟩ := Option.ne_none_iff_exists'.mp ready
  refine ⟨alone s hub' a', .task .lone time (Nat.le_max_left ..) ?_⟩
  simp only [stepTask, stepLone, setClock, alone, bind, Option.bind_some, stepped, pure]

theorem LeftAlone.clock (leftAlone : LeftAlone tape s item before hub calls a) {time : Nat}
    (later : hub.now ≤ time) :
    LeftAlone tape s item before { hub with now := time } calls a := by
  have around : Around item.id hub { hub with now := time } := ⟨later, id, rfl⟩
  exact ⟨⟨rfl, rfl, leftAlone.follows.made.congr rfl, leftAlone.follows.stands.around around⟩,
    leftAlone.live, leftAlone.slots⟩

theorem LeftAlone.step {hub' : Hub} {a' : Attempts}
    (leftAlone : LeftAlone tape s item before hub calls a)
    (answers : tape.Answers w s.transformTimeout item.id before.length)
    (moves : Moves w s.retry s.transformTimeout hub a hub' a') :
    ∃ calls', LeftAlone tape s item before hub' calls' a' := by
  obtain ⟨calls', made, stands, _⟩ :=
    leftAlone.follows.stands.moves leftAlone.follows.made answers moves
  exact ⟨calls', ⟨rfl, rfl, made, stands⟩, moves.alike.cancelled.trans leftAlone.live,
    moves.slots ▸ leftAlone.slots⟩

theorem LeftAlone.decided (leftAlone : LeftAlone tape s item before hub calls a) {k : Nat}
    (least : IsLeast {i | tape.Decisive s.retry i} k) {outcome : Attempts.Outcome}
    (ended : a.outcome? = some outcome) :
    hub.callsFor item.id = before.length + k ∧ a = .ended (tape.verdict item k) := by
  have stands := leftAlone.follows.stands
  have made := leftAlone.follows.made
  cases stands with
  | decided least' =>
      rw [← least'.unique least]
      exact ⟨made.callsFor, rfl⟩
  | cutShort _ cancelled =>
      have live := leftAlone.live
      have cancelled : hub.cancelled := cancelled
      simp [cancelled] at live
  | waiting | calling | pausing => cases ended

/-- Attempts that nobody disturbs come to the end that the tape has for them. -/
theorem LeftAlone.inevitable (leftAlone : LeftAlone tape s item before hub calls a)
    (answers : tape.Answers w s.transformTimeout item.id before.length) {k : Nat}
    (least : IsLeast {i | tape.Decisive s.retry i} k) :
    Inevitable w (fun r => r.hub.callsFor item.id = before.length + k ∧
      r.lone = some (.ended (tape.verdict item k))) (alone s hub a) := by
  refine inevitable_of_potential
    (fun r => ∃ hub calls a, r = alone s hub a ∧ LeftAlone tape s item before hub calls a) _
    (fun r => (r.lone.map (Attempts.weight r.settings.retry)).getD 0) ?_ ?_ ?_ (fun _ _ => rfl) _
    ⟨hub, calls, a, rfl, leftAlone⟩
  case refine_1 =>
    rintro _ ⟨hub, calls, a, rfl, leftAlone⟩ unfinished
    cases ended : a.outcome? with
    | none => exact leftAlone.moves ended
    | some outcome =>
        obtain ⟨count, rfl⟩ := leftAlone.decided least ended
        exact absurd ⟨count, rfl⟩ unfinished
  case refine_2 =>
    rintro _ r' ⟨hub, calls, a, rfl, leftAlone⟩ _ move
    cases move with
    | task action time later stepped =>
        obtain ⟨hub', a', moves, rfl⟩ := moves_of_stepTask_alone stepped
        obtain ⟨calls', leftAlone'⟩ := (leftAlone.clock later).step answers moves
        exact ⟨hub', calls', a', rfl, leftAlone'⟩
    | wait time due _ later _ =>
        exact ⟨_, calls, a, rfl, leftAlone.clock (Nat.le_of_lt later)⟩
  case refine_3 =>
    rintro _ r' action time ⟨hub, calls, a, rfl, _⟩ _ stepped
    obtain ⟨hub', a', moves, rfl⟩ := moves_of_stepTask_alone stepped
    exact moves.weight_lt.1

/-- The decoder is called for an item until a call decides its fate, with a pause between calls. -/
theorem retries_until_decided (item : WorkItem) (new : item.attempt = 0)
    (clean : item.lastError = none) (hub : Hub)
    (answers : tape.Answers w s.transformTimeout item.id (hub.callsFor item.id)) :
    ∃ k, IsLeast {i | tape.Decisive s.retry i} k ∧
      (hub.cancelled = false → 0 < hub.slots →
        Inevitable w (fun r => r.hub.callsFor item.id = hub.callsFor item.id + k ∧
          r.lone = some (.ended (tape.verdict item k))) (alone s hub (.begin item))) ∧
      ∀ r, Relation.ReflTransGen (Proceeds w item.id) (alone s hub (.begin item)) r →
        ∃ calls a,
          Retries w tape s item k (hub.decoderCalls.filter (·.id = item.id)) r calls a := by
  obtain ⟨k, least⟩ := tape.exists_isLeast_decisive s.retry
  have follows := follows_begin tape s hub new clean
  refine ⟨k, least, fun live slots => ?_, fun r reached => ?_⟩
  · exact LeftAlone.inevitable ⟨follows, live, by omega⟩ answers least
  · obtain ⟨calls, a, follows', _⟩ := follows.reached answers reached
    exact ⟨calls, a, follows'.retries answers least⟩

/-- A decoder that breaks down once and then decodes two frames. -/
def secondTry : Tape where
  delay _ := 5
  result
    | 1 => .error (.exit (some 1) "no keyframe")
    | _ => .ok ⟨["a_dec_0001.ply", "a_dec_0000.ply"], []⟩

def secondTryWorld : World where
  catalog _ := ⟨none, .panics⟩
  decoder _ i := { delay := some 5, reply := secondTry.reply (i + 1), heeds := true }
  reset := ⟨none, .panics⟩
  accept _ _ := ⟨none, .panics⟩

def smallHub : Hub := { work := { capacity := 1 }, artifacts := { capacity := 1 }, slots := 1 }

theorem retries_until_second_try :
    ∃ item : WorkItem, item.attempt = 0 ∧ item.lastError = none ∧
      secondTry.Answers secondTryWorld (.ofSeconds 600) item.id (smallHub.callsFor item.id) ∧
      Inevitable secondTryWorld (fun r => r.hub.callsFor item.id = 2 ∧
        r.lone = some (.ended (.transformed
          ⟨item.id, ["a_dec_0001.ply", "a_dec_0000.ply"], Instant.epoch, 2⟩)))
        (alone {} smallHub (.begin item)) ∧
      ∀ r, Relation.ReflTransGen (Proceeds secondTryWorld item.id)
          (alone {} smallHub (.begin item)) r →
        ∃ calls a, Retries secondTryWorld secondTry {} item 2 [] r calls a := by
  have answers : secondTry.Answers secondTryWorld (.ofSeconds 600) "a" (smallHub.callsFor "a") :=
    fun i => by cases i <;> rfl
  have second : IsLeast {i | secondTry.Decisive {} i} 2 := by
    refine ⟨⟨by decide, .inl ⟨_, rfl⟩⟩, fun i decisive => ?_⟩
    by_contra below
    have pos := decisive.1
    obtain rfl : i = 1 := by omega
    simp [Tape.Decisive, secondTry, Fault.isRetryable] at decisive
  obtain ⟨k, least, comes, holds⟩ :=
    retries_until_decided (s := {}) (WorkItem.new "a" "/s/a" Instant.epoch) rfl rfl smallHub answers
  obtain rfl := least.unique second
  exact ⟨_, rfl, rfl, answers, comes rfl (by decide), holds⟩

end Run

end DecodePipeline
