import DecodePipeline.Proofs.Queue.Promise

/-!
Runs of a queue with those who wait on it. However late woken operations run, whoever waits
when none is left to run has nothing to wait for but a full or an empty open queue. When they
run at once, operations of a kind succeed in the order they were started.
-/

namespace DecodePipeline.Queue

variable {α : Type}

/-- A hall with the waiting operations of each kind that were started and that succeeded. -/
structure Roll (α : Type) where
  hall : Hall α
  started : Kind → List Nat := fun _ => []
  succeeded : Kind → List Nat := fun _ => []

namespace Roll

open Hall

def new (q : Queue α) : Roll α := { hall := { queue := q } }

def step (r : Roll α) (s : Step α) : Roll α :=
  let (shown, hall) := r.hall.step s
  { hall
    started := fun k => r.started k ++ s.started k
    succeeded := fun k => r.succeeded k ++ shown.served k }

def run (r : Roll α) (steps : List (Step α)) : Roll α := steps.foldl step r

/-- Woken operations run before anything else is done. -/
def Prompt (r : Roll α) : List (Step α) → Prop
  | [] => True
  | s :: steps => (s.isResume = false → r.hall.Calm) ∧ (r.step s).Prompt steps

instance Prompt.decidable (r : Roll α) : (steps : List (Step α)) → Decidable (r.Prompt steps)
  | [] => inferInstanceAs (Decidable True)
  | s :: steps => @instDecidableAnd _ _ inferInstance (Prompt.decidable (r.step s) steps)

variable {r : Roll α}

/-- The invariant of all runs. -/
structure Sound (capacity : Nat) (r : Roll α) : Prop where
  heard : r.hall.Heard none
  room : r.hall.queue.capacity = capacity
  within : r.hall.queue.size ≤ r.hall.queue.capacity

theorem Sound.step {capacity : Nat} (sound : r.Sound capacity) {s : Step α}
    (fresh : ∀ id ∈ s.number?, id ∉ r.hall.numbers) : (r.step s).Sound capacity := by
  have effect := (step_spec r.hall s).1
  exact ⟨sound.heard.moved fresh (moved sound.within s), effect.capacity.trans sound.room,
    effect.size_le sound.within⟩

/-- A call woken alone that will find what it was woken for, before all that were started later. -/
structure Sure (r : Roll α) (c : Call α) : Prop where
  opened : r.hall.queue.closed = false
  live : r.hall.isFired c = false
  supplied : 0 < r.hall.queue.supply c.kind
  alone : ∀ d ∈ r.hall.calls, r.hall.isRunnable d = true → d = c
  next : (r.succeeded c.kind ++ c.id :: (r.hall.bell c.kind).waiting).Sublist (r.started c.kind)

/-- The invariant of runs in which woken operations run at once. -/
structure InTurn (r : Roll α) : Prop where
  order : ∀ k, (r.succeeded k ++ (r.hall.bell k).waiting).Sublist (r.started k)
  sure : ∀ c ∈ r.hall.calls, c.woken = some .one → r.Sure c
  last : ∀ c ∈ r.hall.calls, c.woken = some .all →
    r.hall.queue.closed = true ∧ (c.kind = .pop → r.hall.queue.supply .pop = 0)

theorem inTurn_of_unwoken (unwoken : ∀ c ∈ r.hall.calls, c.woken = none)
    (order : ∀ k, (r.succeeded k ++ (r.hall.bell k).waiting).Sublist (r.started k)) :
    r.InTurn := by
  refine ⟨order, ?_, ?_⟩
  · intro c mem woken
    rw [unwoken c mem] at woken
    contradiction
  · intro c mem woken
    rw [unwoken c mem] at woken
    contradiction

theorem InTurn.fewer {h : Hall α} (inTurn : r.InTurn) (queue : h.queue = r.hall.queue)
    (fired : h.fired = r.hall.fired) (calls : h.calls ⊆ r.hall.calls)
    (bells : ∀ k, (h.bell k).waiting.Sublist (r.hall.bell k).waiting) :
    { r with hall := h }.InTurn := by
  have same (c : Call α) : h.isFired c = r.hall.isFired c := by rw [isFired, isFired, fired]
  refine ⟨?_, ?_, ?_⟩
  · exact fun k => ((bells k).append_left _).trans (inTurn.order k)
  · intro c mem woken
    have sure := inTurn.sure c (calls mem) woken
    refine ⟨?_, ?_, ?_, ?_, ?_⟩
    · exact queue ▸ sure.opened
    · exact (same c).trans sure.live
    · exact queue ▸ sure.supplied
    · intro d mem' runnable
      refine sure.alone d (calls mem') ?_
      rwa [isRunnable, ← same]
    · exact (((bells c.kind).cons_cons c.id).append_left _).trans sure.next
  · intro c mem woken
    exact queue ▸ inTurn.last c (calls mem) woken

/-- A ring in a calm hall wakes the call that is next, and it will find what it waits for. -/
theorem inTurn_ring {k : Kind} (heard : r.hall.Heard (some k)) (calm : r.hall.Calm)
    (supplied : 0 < r.hall.queue.supply k)
    (order : ∀ k, (r.succeeded k ++ (r.hall.bell k).waiting).Sublist (r.started k)) :
    { r with hall := r.hall.ring k }.InTurn := by
  have same (c : Call α) : (r.hall.ring k).isFired c = r.hall.isFired c := by
    rw [isFired, isFired, ring_fired]
  have bells (k' : Kind) :
      ((r.hall.ring k).bell k').waiting.Sublist (r.hall.bell k').waiting := by
    rw [bell_ring]
    split
    · next eq => exact eq ▸ List.tail_sublist _
    · exact .refl _
  have order' : ∀ k',
      (r.succeeded k' ++ ((r.hall.ring k).bell k').waiting).Sublist (r.started k') :=
    fun k' => ((bells k').append_left _).trans (order k')
  cases longest : (r.hall.bell k).waiting with
  | nil =>
      refine inTurn_of_unwoken (fun c mem => ?_) order'
      rw [ring_calls_of_nil longest] at mem
      exact (calm.unwoken mem).1
  | cons id rest =>
      obtain ⟨c, mem, rfl, kind, unwoken⟩ := (heard.asleep k id).mp (by simp [longest])
      obtain ⟨before, after, among⟩ := among_of_mem heard.distinct mem
      have calls : (r.hall.ring k).calls = before ++ { c with woken := some .one } :: after :=
        (ring_calls_of_cons longest).trans (among.update _)
      have cases_of_mem : ∀ d ∈ (r.hall.ring k).calls,
          d = { c with woken := some .one } ∨ d.woken = none ∧ r.hall.isFired d = false := by
        intro d mem'
        by_cases eq : d = { c with woken := some .one }
        · exact .inl eq
        · rw [calls] at mem'
          exact .inr (calm.unwoken (by rw [among.split]; grind))
      refine ⟨order', ?_, ?_⟩
      · intro d mem' woken
        obtain rfl | ⟨unwoken', _⟩ := cases_of_mem d mem'
        · subst kind
          refine ⟨?_, ?_, ?_, ?_, ?_⟩
          · by_contra closed
            have nobody := heard.closed (by simpa using closed) c.kind
            rw [longest] at nobody
            contradiction
          · exact (same _).trans (calm.unwoken mem).2
          · exact (ring_queue r.hall c.kind).symm ▸ supplied
          · intro d mem' runnable
            refine (cases_of_mem d mem').resolve_right ?_
            rintro ⟨unwoken', live⟩
            simp [isRunnable, same, unwoken', live] at runnable
          · change (r.succeeded c.kind ++
              c.id :: ((r.hall.ring c.kind).bell c.kind).waiting).Sublist _
            rw [bell_ring, if_pos rfl, longest, List.tail_cons, ← longest]
            exact order c.kind
        · rw [unwoken'] at woken
          contradiction
      · intro d mem' woken
        obtain rfl | ⟨unwoken', _⟩ := cases_of_mem d mem'
        · simp at woken
        · rw [unwoken'] at woken
          contradiction

/-- A call that succeeds when no other could run was next. -/
theorem inTurn_served {c : Call α} {q : Queue α} (aside : (r.hall.remove c.id).Heard c.owes)
    (alone : ∀ d ∈ (r.hall.remove c.id).calls, r.hall.isRunnable d = false)
    (serves : Serves c.kind r.hall.queue q)
    (order : ∀ k, (r.succeeded k ++ (r.hall.bell k).waiting).Sublist (r.started k))
    (next : (r.succeeded c.kind ++ c.id :: (r.hall.bell c.kind).waiting).Sublist
      (r.started c.kind)) :
    InTurn {
      hall := ({ r.hall.remove c.id with queue := q }.hush c.kind).ring c.kind.other
      started := r.started
      succeeded := fun k => r.succeeded k ++ if c.kind = k then [c.id] else [] } := by
  have bells (k : Kind) : (({ r.hall.remove c.id with queue := q }.hush c.kind).bell k).waiting =
      (r.hall.bell k).waiting.filter (· ≠ c.id) := by
    rw [← bell_remove]
    cases c.kind <;> cases k <;> rfl
  refine inTurn_ring (r := ⟨{ r.hall.remove c.id with queue := q }.hush c.kind, r.started, _⟩)
    ((aside.take (Call.owes_of_ne c.kind.other_ne.symm) serves).hush _) ?_ ?_ ?_
  · cases c.kind <;> exact alone
  · have made := serves.made
    rw [hush_queue]
    simp only
    omega
  · intro k
    simp only [bells]
    split
    · next kind =>
        subst kind
        rw [List.append_assoc, List.singleton_append]
        exact ((List.filter_sublist.cons_cons c.id).append_left _).trans next
    · rw [List.append_nil]
      exact (List.filter_sublist.append_left _).trans (order k)

/-- A call that leaves and was not woken alone rings for nobody. -/
theorem InTurn.leave {c : Call α} (inTurn : r.InTurn) (unowed : c.owes = none) :
    { r with hall := r.hall.leave c }.InTurn := by
  rw [leave_eq, unowed]
  refine inTurn.fewer rfl rfl (List.filter_subset_self _) fun k => ?_
  rw [bell_remove]
  exact List.filter_sublist

theorem InTurn.ended {c : Call α} (inTurn : r.InTurn) :
    { r with hall := (r.hall.remove c.id).hush c.kind }.InTurn := by
  have bells (k : Kind) : (((r.hall.remove c.id).hush c.kind).bell k).waiting =
      (r.hall.bell k).waiting.filter (· ≠ c.id) := by
    rw [← bell_remove]
    cases c.kind <;> cases k <;> rfl
  refine inTurn.fewer (by simp) ?_ ?_ fun k => bells k ▸ List.filter_sublist
  · cases c.kind <;> rfl
  · cases c.kind <;> exact List.filter_subset_self _

theorem inTurn_closed (heard : r.hall.Heard none) (calm : r.hall.Calm)
    (order : ∀ k, (r.succeeded k ++ (r.hall.bell k).waiting).Sublist (r.started k)) :
    { r with hall := { r.hall with queue := r.hall.queue.close }.wakeAll }.InTurn := by
  have all : ∀ c ∈ { r.hall with queue := r.hall.queue.close }.wakeAll.calls,
      c.woken = some .all ∧ r.hall.queue.supply c.kind = 0 := by
    intro c mem
    obtain ⟨d, mem, eq⟩ := exists_of_mem_wakeAll mem
    have waiting := (heard.asleep d.kind d.id).mpr ⟨d, mem, rfl, rfl, (calm.unwoken mem).1⟩
    have nothing := (heard.nothing calm (List.ne_nil_of_mem waiting)).2
    obtain ⟨rfl, unheard⟩ | rfl := eq
    · exact absurd waiting (unheard c.kind)
    · exact ⟨rfl, nothing⟩
  refine ⟨?_, ?_, ?_⟩
  · intro k
    simpa using (List.sublist_append_left _ _).trans (order k)
  · intro c mem woken
    rw [(all c mem).1] at woken
    contradiction
  · intro c mem _
    exact ⟨rfl, fun kind => kind ▸ (all c mem).2⟩

theorem InTurn.resumed {c : Call α} {h : Hall α} {result : Option (CallResult α)}
    (inTurn : r.InTurn) (heard : r.hall.Heard none) (mem : c ∈ r.hall.calls)
    (runnable : r.hall.isRunnable c = true) (looked : Looked r.hall c h result) :
    InTurn {
      hall := h
      started := r.started
      succeeded := fun k => r.succeeded k ++ (showCall c.id (h, result)).1.served k } := by
  have sure := inTurn.sure c mem
  have last := inTurn.last c mem
  have woken (live : r.hall.isFired c = false) : c.woken = some .one ∨ c.woken = some .all := by
    rw [isRunnable, live, Bool.or_false] at runnable
    obtain ⟨wake, woken⟩ := Option.isSome_iff_exists.mp runnable
    cases wake <;> simp [woken]
  cases looked with
  | cancelled fired =>
      have unowed : c.owes = none := by
        refine if_neg fun woken => ?_
        rw [(sure woken).live] at fired
        contradiction
      simpa [showCall, Shown.served, CallResult.served] using inTurn.leave unowed
  | served q result live serves opened served =>
      simp only [showCall, Shown.served, served, Option.some.injEq]
      have used := serves.used
      obtain one | all := woken live
      · have others : ∀ d ∈ (r.hall.remove c.id).calls, r.hall.isRunnable d = false := by
          intro d mem'
          simp only [remove, List.mem_filter] at mem'
          by_contra runnable
          have same := (sure one).alone d mem'.1 (by simpa using runnable)
          simp [same] at mem'
        exact inTurn_served (heard.remove mem) others serves inTurn.order (sure one).next
      · obtain ⟨closed, nothing⟩ := last all
        cases kind : c.kind with
        | push =>
            rw [opened kind] at closed
            contradiction
        | pop =>
            rw [kind, nothing kind] at used
            omega
  | ended result _ _ _ served => simpa [showCall, Shown.served, served] using inTurn.ended
  | asleep live opened nothing =>
      obtain one | all := woken live
      · have := (sure one).supplied
        omega
      · rw [opened] at last
        simpa using (last all).1

theorem InTurn.began {c : Call α} {h : Hall α} {result : Option (CallResult α)}
    (inTurn : r.InTurn) (heard : r.hall.Heard none) (calm : r.hall.Calm)
    (fresh : c.id ∉ r.hall.numbers) (unwoken : c.woken = none)
    (looked : Looked { r.hall with calls := r.hall.calls ++ [c] } c h result) :
    InTurn {
      hall := h
      started := fun k => r.started k ++ if c.kind = k then [c.id] else []
      succeeded := fun k => r.succeeded k ++ (showCall c.id (h, result)).1.served k } := by
  let begun : Roll α := {
    hall := { r.hall with calls := r.hall.calls ++ [c] }
    started := fun k => r.started k ++ if c.kind = k then [c.id] else []
    succeeded := r.succeeded }
  have order (k : Kind) :
      (r.succeeded k ++ (r.hall.bell k).waiting ++ if c.kind = k then [c.id] else []).Sublist
        (begun.started k) := (inTurn.order k).append_right _
  have asleep : ∀ d ∈ r.hall.calls ++ [c], d.woken = none := by
    intro d mem
    obtain mem | mem := List.mem_append.mp mem
    · exact (calm.unwoken mem).1
    · obtain rfl := List.mem_singleton.mp mem
      exact unwoken
  have before : begun.InTurn :=
    inTurn_of_unwoken asleep fun k => (List.sublist_append_left _ _).trans (order k)
  cases looked with
  | cancelled =>
      have unowed : c.owes = none := by simp [Call.owes, unwoken]
      simpa [showCall, Shown.served, CallResult.served] using before.leave unowed
  | served q result _ serves _ served =>
      simp only [showCall, Shown.served, served, Option.some.injEq]
      have used := serves.used
      have nobody : (r.hall.bell c.kind).waiting = [] := by
        by_contra somebody
        have nothing := (heard.nothing calm somebody).2
        simp only at used
        omega
      have others : ∀ d ∈ (begun.hall.remove c.id).calls, begun.hall.isRunnable d = false := by
        intro d mem
        rw [(among_began fresh).remove, List.append_nil] at mem
        exact calm d mem
      refine inTurn_served (r := begun) (heard.aside fresh unwoken) others serves before.order ?_
      have next := order c.kind
      change (r.succeeded c.kind ++ c.id :: (r.hall.bell c.kind).waiting).Sublist _
      rw [nobody] at next ⊢
      simpa using next
  | ended result _ _ _ served => simpa [showCall, Shown.served, served] using before.ended
  | asleep =>
      simp only [showCall, Shown.served, List.append_nil]
      refine inTurn_of_unwoken (fun d mem => ?_) fun k => ?_
      · rw [sleep_calls, List.mem_map] at mem
        obtain ⟨d, mem, rfl⟩ := mem
        split
        · rfl
        · exact asleep d mem
      · rw [bell_sleep, ← List.append_assoc]
        exact order k

theorem started_of_number? {s : Step α} (none : s.number? = none) (k : Kind) :
    s.started k = [] := by
  cases s with
  | start id wish cancellable => contradiction
  | tryPush _ | tryPop | close | resume _ | drop _ | cancel | renew => rfl

theorem InTurn.moved {s : Step α} {shown : Shown α} {h : Hall α} (inTurn : r.InTurn)
    (heard : r.hall.Heard none) (fresh : ∀ id ∈ s.number?, id ∉ r.hall.numbers)
    (prompt : s.isResume = false → r.hall.Calm) (moved : Moved r.hall s shown h) :
    InTurn {
      hall := h
      started := fun k => r.started k ++ s.started k
      succeeded := fun k => r.succeeded k ++ shown.served k } := by
  cases moved with
  | still number quiet => simpa [started_of_number? number, quiet] using inTurn
  | taken k q number outside quiet serves =>
      simp only [started_of_number? number, quiet, List.append_nil]
      have made := serves.made
      refine inTurn_ring (r := ⟨{ r.hall with queue := q }, r.started, r.succeeded⟩)
        (heard.take nofun serves) (prompt outside) ?_ inTurn.order
      simp only
      omega
  | closed =>
      simp only [Step.started, Shown.served, List.append_nil]
      exact inTurn_closed heard (prompt rfl) inTurn.order
  | began c _ unwoken looked =>
      exact inTurn.began heard (prompt rfl) (fresh c.id rfl) unwoken looked
  | resumed c mem runnable looked =>
      simp only [Step.started, List.append_nil]
      exact inTurn.resumed heard mem runnable looked
  | dropped c mem =>
      simp only [Step.started, Shown.served, List.append_nil]
      have unwoken := ((prompt rfl).unwoken mem).1
      exact inTurn.leave (by simp [Call.owes, unwoken])
  | signalled token fired number outside =>
      simp only [started_of_number? number, Shown.served, List.append_nil]
      exact inTurn_of_unwoken (fun c mem => ((prompt outside).unwoken mem).1) inTurn.order

theorem sound_new (q : Queue α) (empty : q.buffer = []) :
    (new q).Sound q.capacity := by
  have nobody (k : Kind) : ((new q).hall.bell k).waiting = [] := by cases k <;> rfl
  refine ⟨⟨List.nodup_nil, ?_, ?_, fun _ => nobody, ?_⟩, rfl, ?_⟩
  · simp [nobody]
  · intro k id
    rw [nobody]
    simp [new]
  · exact fun k somebody => absurd (nobody k) somebody
  · simp [new, size, empty]

theorem inTurn_new (q : Queue α) : (new q).InTurn := by
  refine inTurn_of_unwoken (fun c mem => nomatch mem) fun k => ?_
  cases k <;> exact .refl _

theorem Sound.run {capacity : Nat} (sound : r.Sound capacity) {steps : List (Step α)}
    (numbered : (r.hall.numbers ++ steps.filterMap Step.number?).Nodup) :
    (r.run steps).Sound capacity ∧ (r.InTurn → r.Prompt steps → (r.run steps).InTurn) := by
  induction steps generalizing r with
  | nil => exact ⟨sound, fun inTurn _ => inTurn⟩
  | cons s steps ih =>
      have split : (s :: steps).filterMap Step.number? =
          s.number?.toList ++ steps.filterMap Step.number? := by
        cases number : s.number? <;> simp [number]
      rw [split, ← List.append_assoc] at numbered
      have did := moved sound.within s
      have fresh : ∀ id ∈ s.number?, id ∉ r.hall.numbers := by
        intro id number mem
        have apart := (List.nodup_append.mp (List.nodup_append.mp numbered).1).2.2
        exact apart id mem id (by simpa using number) rfl
      obtain ⟨sound', inTurn'⟩ := ih (r := r.step s) (sound.step fresh)
        (numbered.sublist (did.numbers.append_right _))
      refine ⟨sound', fun inTurn prompt => ?_⟩
      exact inTurn' (inTurn.moved sound.heard fresh prompt.1 did) prompt.2

end Roll

/-- Nobody misses a wakeup: whoever still waits when no woken operation is left to run waits
at an open queue, to push if it is full and to pop if it is empty, and is not cancelled. If
woken operations run before the next step, those of a kind that succeed do so in the order
they were started. -/
theorem no_lost_wakeup {q : Queue α} {capacity : Nat} (made : Queue.make? capacity = .ok q)
    (steps : List (Hall.Step α)) (numbered : (steps.filterMap Hall.Step.number?).Nodup) :
    (((Roll.new q).run steps).hall.Calm →
      ((Roll.new q).run steps).hall.queue.capacity = capacity ∧
        ((Roll.new q).run steps).hall.Rested) ∧
      ((Roll.new q).Prompt steps → ∀ k,
        (((Roll.new q).run steps).succeeded k).Sublist (((Roll.new q).run steps).started k)) := by
  unfold make? at made
  split at made
  · contradiction
  · next positive =>
      obtain rfl : _ = q := Except.ok.inj made
      obtain ⟨sound, inTurn⟩ := (Roll.sound_new { capacity } rfl).run numbered
      refine ⟨fun calm => ⟨sound.room, ?_⟩, fun prompt k => ?_⟩
      · exact sound.heard.rested calm sound.within (sound.room ▸ Nat.pos_of_ne_zero positive)
      · have order := (inTurn (Roll.inTurn_new _) prompt).order k
        exact (List.sublist_append_left _ _).trans order

/-- A woken push is dropped and its wakeup goes on to the next, which succeeds; when nothing is
dropped both succeed in turn. -/
theorem no_lost_wakeup_handed_on :
    let q : Queue Nat := { capacity := 1 }
    let waiting : List (Hall.Step Nat) :=
      [.tryPush 7, .start 0 (.push 8) false, .start 1 (.push 9) true, .start 2 (.push 10) true]
    let late := waiting ++ [.tryPop, .drop 0, .resume 1]
    let prompt := waiting ++ [.tryPop, .resume 0, .tryPop, .resume 1]
    (((Roll.new q).run late).hall.numbers = [2] ∧ ((Roll.new q).run late).hall.Rested) ∧
      ((Roll.new q).run prompt).succeeded .push = [0, 1] ∧
        (((Roll.new q).run prompt).succeeded .push).Sublist
          (((Roll.new q).run prompt).started .push) := by
  intro q waiting late prompt
  have made : Queue.make? 1 = .ok q := rfl
  have dropped := no_lost_wakeup made late (by decide)
  have inTurn := no_lost_wakeup made prompt (by decide)
  exact ⟨⟨by decide, (dropped.1 (by decide)).2⟩, by decide, inTurn.2 (by decide) .push⟩

end DecodePipeline.Queue
