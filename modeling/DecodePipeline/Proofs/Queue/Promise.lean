import DecodePipeline.Proofs.Queue.Bell

/-!
Why no wakeup is lost. As long as somebody waits at a bell, each place or item that it rings
for is promised to a call that was woken alone and has not run yet. A call that succeeds owes
a ring to the other bell, and a call that leaves owes the ring with which it was woken.
-/

namespace DecodePipeline.Queue.Hall

variable {α : Type}

/-- Somebody who waits at a bell is asleep and hears it, and each supply that the bell rings
for is promised, but for one if a ring is owed. Nobody waits on a closed queue. -/
structure Heard (owed : Option Kind) (h : Hall α) : Prop where
  distinct : h.numbers.Nodup
  waiting : ∀ k, (h.bell k).waiting.Nodup
  asleep : ∀ k id, id ∈ (h.bell k).waiting ↔ ∃ c ∈ h.calls, c.id = id ∧ c.kind = k ∧ c.woken = none
  closed : h.queue.closed → ∀ k, (h.bell k).waiting = []
  promised : ∀ k, (h.bell k).waiting ≠ [] →
    h.queue.supply k ≤ h.promised k + if owed = some k then 1 else 0

variable {h h' : Hall α} {owed : Option Kind}

theorem Heard.congr (heard : h.Heard owed) (queue : h'.queue = h.queue) (calls : h'.calls = h.calls)
    (bells : ∀ k, (h'.bell k).waiting = (h.bell k).waiting) : h'.Heard owed where
  distinct := by rw [numbers, calls]; exact heard.distinct
  waiting k := by rw [bells]; exact heard.waiting k
  asleep k id := by rw [bells, calls]; exact heard.asleep k id
  closed := by
    intro closed k
    rw [bells]
    rw [queue] at closed
    exact heard.closed closed k
  promised := by
    intro k
    rw [bells, queue, Hall.promised, calls]
    exact heard.promised k

theorem Heard.owed_of_closed (heard : h.Heard owed) (closed : h.queue.closed)
    (owed' : Option Kind) : h.Heard owed' :=
  { heard with promised := fun k somebody => absurd (heard.closed closed k) somebody }

theorem Heard.eq_of_id (heard : h.Heard owed) {c d : Call α} (mem : c ∈ h.calls)
    (mem' : d ∈ h.calls) (same : c.id = d.id) : c = d :=
  List.inj_on_of_nodup_map heard.distinct mem mem' same

/-- A call among the others, none of which has its number. -/
structure Among (calls before : List (Call α)) (c : Call α) (after : List (Call α)) : Prop where
  split : calls = before ++ c :: after
  others : ∀ d ∈ before ++ after, d.id ≠ c.id

theorem among_of_mem {calls : List (Call α)} {c : Call α} (distinct : (calls.map Call.id).Nodup)
    (mem : c ∈ calls) : ∃ before after, Among calls before c after := by
  obtain ⟨before, after, rfl⟩ := List.append_of_mem mem
  refine ⟨before, after, rfl, ?_⟩
  rw [List.map_append, List.map_cons, List.nodup_middle, List.nodup_cons] at distinct
  intro d mem same
  exact distinct.1 (same ▸ List.map_append ▸ List.mem_map_of_mem mem)

variable {before after : List (Call α)} {c : Call α}

theorem Among.remove (among : Among h.calls before c after) :
    (h.remove c.id).calls = before ++ after := by
  have kept : (before ++ after).filter (·.id ≠ c.id) = before ++ after :=
    List.filter_eq_self.mpr fun d mem => decide_eq_true (among.others d mem)
  simp only [Hall.remove, among.split]
  rw [← kept]
  simp [List.filter_append]

theorem Among.update (among : Among h.calls before c after) (f : Call α → Call α) :
    (h.calls.map fun d => if d.id = c.id then f d else d) = before ++ f c :: after := by
  have kept (ds : List (Call α)) (le : ds ⊆ before ++ after) :
      (ds.map fun d => if d.id = c.id then f d else d) = ds := by
    refine (List.map_congr_left fun d mem => ?_).trans (List.map_id ds)
    exact if_neg (among.others d (le mem))
  rw [among.split, List.map_append, List.map_cons, kept before (List.subset_append_left _ _),
    kept after (List.subset_append_right _ _), if_pos rfl]

theorem Among.promised (among : Among h.calls before c after) (k : Kind) :
    h.promised k = (h.remove c.id).promised k + if c.owes = some k then 1 else 0 := by
  rw [Hall.promised, Hall.promised, among.remove, among.split]
  by_cases woken : c.woken = some .one <;> by_cases kind : c.kind = k <;>
    simp [Call.owes, woken, kind, Nat.add_assoc]

/-- A call that leaves owes the ring with which it was woken. -/
theorem Heard.remove (heard : h.Heard none) (mem : c ∈ h.calls) :
    (h.remove c.id).Heard c.owes := by
  obtain ⟨before, after, among⟩ := among_of_mem heard.distinct mem
  refine ⟨?_, ?_, ?_, ?_, ?_⟩
  · exact heard.distinct.sublist (List.filter_sublist.map _)
  · intro k
    rw [bell_remove]
    exact (heard.waiting k).filter _
  · intro k id
    have asleep := heard.asleep k id
    rw [bell_remove, among.remove, List.mem_filter, asleep, among.split]
    have others := among.others
    grind
  · intro closed k
    rw [bell_remove, heard.closed closed k]
    rfl
  · intro k somebody
    rw [bell_remove] at somebody
    have before := heard.promised k (by grind)
    rw [among.promised] at before
    simpa using before

/-- A ring that was owed wakes the call that waits longest, if there is one. -/
theorem Heard.ring {k : Kind} (heard : h.Heard (some k)) : (h.ring k).Heard none := by
  cases longest : (h.bell k).waiting with
  | nil =>
      have calls := ring_calls_of_nil longest
      have bells (k' : Kind) : ((h.ring k).bell k').waiting = (h.bell k').waiting := by
        rw [bell_ring]
        split
        · next same => rw [same, longest, List.tail_nil]
        · rfl
      have unowed : h.Heard none := by
        refine { heard with promised := ?_ }
        intro k' somebody
        have other : k ≠ k' := by
          rintro rfl
          exact somebody longest
        simpa [other] using heard.promised k' somebody
      exact unowed.congr (ring_queue h k) calls bells
  | cons id rest =>
      obtain ⟨c, mem, rfl, kind, unwoken⟩ := (heard.asleep k id).mp (by simp [longest])
      obtain ⟨before, after, among⟩ := among_of_mem heard.distinct mem
      have calls : (h.ring k).calls = before ++ { c with woken := some .one } :: after :=
        (ring_calls_of_cons longest).trans (among.update _)
      have nodup := heard.waiting k
      rw [longest] at nodup
      refine ⟨?_, ?_, ?_, ?_, ?_⟩
      · rw [numbers_ring]
        exact heard.distinct
      · intro k'
        rw [bell_ring]
        split
        · rw [longest]
          exact (List.nodup_cons.mp nodup).2
        · exact heard.waiting k'
      · intro k' id
        have asleep := heard.asleep k' id
        have others := among.others
        rw [among.split] at asleep
        rw [bell_ring, calls, longest]
        grind
      · intro closed k'
        rw [ring_queue] at closed
        rw [heard.closed closed k] at longest
        cases longest
      · intro k' somebody
        have somebody' : (h.bell k').waiting ≠ [] := by
          rw [bell_ring] at somebody
          grind
        have before := heard.promised k' somebody'
        rw [ring_queue, Hall.promised, calls]
        rw [Hall.promised, among.split] at before
        by_cases same : k = k'
        · subst same
          simpa [unwoken, Call.kind, ← kind, Nat.add_assoc] using before
        · have kind' : c.kind ≠ k' := fun other => same (kind.symm.trans other)
          simp only [Call.kind] at kind'
          simpa [unwoken, Call.kind, kind', same] using before

/-- Whoever looks and succeeds uses what it was promised and owes a ring to the other bell. -/
theorem Heard.take {k : Kind} {q : Queue α} (heard : h.Heard owed) (own : owed ≠ some k.other)
    (serves : Serves k h.queue q) : { h with queue := q }.Heard (some k.other) := by
  refine ⟨heard.distinct, heard.waiting, heard.asleep, ?_, ?_⟩
  · intro closed
    exact heard.closed (serves.closed ▸ closed)
  · intro k' somebody
    have before := heard.promised k' somebody
    have used := serves.used
    have made := serves.made
    change q.supply k' ≤ h.promised k' + _
    obtain rfl | rfl := k.eq_or_eq_other k'
    · grind
    · rw [if_neg own] at before
      rw [if_pos rfl]
      omega

theorem Heard.leave (aside : (h.remove c.id).Heard c.owes) : (h.leave c).Heard none := by
  rw [leave_eq]
  generalize c.owes = owed at aside
  cases owed with
  | none => exact aside
  | some k => exact aside.ring

/-- A call that found nothing for it may go to sleep: its bell rings for nothing now. -/
theorem Heard.sleep (aside : (h.remove c.id).Heard c.owes) (among : Among h.calls before c after)
    (unheard : ∀ k, c.id ∉ (h.bell k).waiting) (opened : h.queue.closed = false)
    (nothing : h.queue.supply c.kind = 0) : (h.sleep c).Heard none := by
  obtain ⟨d, id, kind, woken, calls⟩ : ∃ d : Call α, d.id = c.id ∧ d.kind = c.kind ∧
      d.woken = none ∧ (h.sleep c).calls = before ++ d :: after :=
    ⟨{ c with woken := none }, rfl, rfl, rfl, (sleep_calls h c).trans (among.update _)⟩
  have bells (k : Kind) : ((h.remove c.id).bell k).waiting = (h.bell k).waiting := by
    rw [bell_remove]
    exact List.filter_eq_self.mpr fun id mem => by grind
  have others := among.others
  refine ⟨?_, ?_, ?_, ?_, ?_⟩
  · rw [numbers_sleep, numbers, among.split, List.map_append, List.map_cons, List.nodup_middle,
      List.nodup_cons, ← List.map_append, ← among.remove]
    exact ⟨by grind [among.remove], aside.distinct⟩
  · intro k
    have waiting := aside.waiting k
    rw [bells] at waiting
    rw [bell_sleep]
    grind
  · intro k id
    have asleep := aside.asleep k id
    rw [bells, among.remove] at asleep
    rw [bell_sleep, calls]
    grind
  · intro closed
    rw [sleep_queue, opened] at closed
    contradiction
  · intro k somebody
    rw [sleep_queue]
    by_cases same : c.kind = k
    · simp [← same, nothing]
    · rw [bell_sleep, if_neg same, List.append_nil, ← bells] at somebody
      have left := aside.promised k somebody
      rw [if_neg (Call.owes_of_ne same), Hall.promised, among.remove] at left
      rw [Hall.promised, calls]
      refine Nat.le_trans left (Nat.le_trans (List.Sublist.countP_le ?_) (Nat.le_add_right _ _))
      exact (List.sublist_cons_self _ _).append_left _
theorem Heard.hush (heard : h.Heard owed) (k : Kind) : (h.hush k).Heard owed := by
  cases k <;> exact heard.congr rfl rfl fun k => by cases k <;> rfl

theorem Heard.looked {result : Option (CallResult α)} (aside : (h.remove c.id).Heard c.owes)
    (among : Among h.calls before c after)
    (unheard : h.isFired c = false → ∀ k, c.id ∉ (h.bell k).waiting)
    (looked : Looked h c h' result) : h'.Heard none := by
  cases looked with
  | cancelled => exact aside.leave
  | served q _ _ serves _ =>
      exact ((aside.take (Call.owes_of_ne c.kind.other_ne.symm) serves).hush _).ring
  | ended _ _ closed => exact (aside.owed_of_closed closed none).hush _
  | asleep live opened nothing => exact aside.sleep among (unheard live) opened nothing

/-- When all are woken nobody waits at a bell, whatever became of the queue. -/
theorem Heard.wakeAll (heard : h.Heard owed) (q : Queue α) :
    { h with queue := q }.wakeAll.Heard none := by
  have woken : ∀ c ∈ { h with queue := q }.wakeAll.calls, c.woken ≠ none := by
    intro c mem
    obtain ⟨d, mem, ⟨rfl, unheard⟩ | rfl⟩ := exists_of_mem_wakeAll mem
    · intro unwoken
      exact unheard c.kind ((heard.asleep c.kind c.id).mpr ⟨c, mem, rfl, rfl, unwoken⟩)
    · simp
  refine ⟨?_, ?_, ?_, ?_, ?_⟩
  · rw [numbers_wakeAll]
    exact heard.distinct
  · simp
  · intro k id
    rw [bell_wakeAll]
    grind
  · simp
  · simp

/-- Only calls that have not ended wait at a bell. -/
theorem Heard.unheard (heard : h.Heard owed) {id : Nat} (gone : id ∉ h.numbers) (k : Kind) :
    id ∉ (h.bell k).waiting := by
  intro waiting
  obtain ⟨c, mem, rfl, _⟩ := (heard.asleep k id).mp waiting
  exact gone (List.mem_map_of_mem mem)

theorem among_began (fresh : c.id ∉ h.numbers) :
    Among ({ h with calls := h.calls ++ [c] } : Hall α).calls h.calls c [] := by
  refine ⟨rfl, fun d mem same => fresh (same ▸ List.mem_map_of_mem ?_)⟩
  simpa using mem

/-- But for a call that just began, a hall is what it was before. -/
theorem Heard.aside (heard : h.Heard none) (fresh : c.id ∉ h.numbers) (unwoken : c.woken = none) :
    ({ h with calls := h.calls ++ [c] }.remove c.id).Heard c.owes := by
  have unowed : c.owes = none := by simp [Call.owes, unwoken]
  rw [unowed]
  refine heard.congr rfl ((among_began fresh).remove.trans (List.append_nil _)) fun k => ?_
  rw [bell_remove]
  refine List.filter_eq_self.mpr fun id mem => decide_eq_true ?_
  rintro rfl
  exact heard.unheard fresh k mem

theorem Heard.resumed {result : Option (CallResult α)} (heard : h.Heard none) (mem : c ∈ h.calls)
    (runnable : h.isRunnable c = true) (looked : Looked h c h' result) : h'.Heard none := by
  obtain ⟨before, after, among⟩ := among_of_mem heard.distinct mem
  refine Heard.looked (heard.remove mem) among ?_ looked
  intro live k waiting
  obtain ⟨d, mem', same, _, unwoken⟩ := (heard.asleep k c.id).mp waiting
  obtain rfl := heard.eq_of_id mem' mem same
  simp [isRunnable, unwoken, live] at runnable

theorem Heard.moved {s : Step α} {shown : Shown α} (heard : h.Heard none)
    (fresh : ∀ id ∈ s.number?, id ∉ h.numbers) (moved : Moved h s shown h') : h'.Heard none := by
  cases moved with
  | still => exact heard
  | taken k q _ _ _ serves => exact Heard.ring (heard.take nofun serves)
  | closed => exact heard.wakeAll _
  | began c _ unwoken looked =>
      have gone := fresh c.id rfl
      have aside := heard.aside gone unwoken
      exact aside.looked (among_began gone) (fun _ => heard.unheard gone) looked
  | resumed c mem runnable looked => exact heard.resumed mem runnable looked
  | dropped c mem => exact (heard.remove mem).leave
  | signalled => exact heard.congr rfl rfl fun k => by cases k <;> rfl

/-- No call could run. -/
def Calm (h : Hall α) : Prop := ∀ c ∈ h.calls, h.isRunnable c = false

instance : Decidable h.Calm := inferInstanceAs (Decidable (∀ c ∈ h.calls, h.isRunnable c = false))

/-- Who still waits when no call could run waits for good reason. -/
structure Rested (h : Hall α) : Prop where
  full : ∀ c ∈ h.calls, c.kind = .push →
    h.queue.closed = false ∧ h.queue.size = h.queue.capacity
  empty : ∀ c ∈ h.calls, c.kind = .pop → h.queue.closed = false ∧ h.queue.size = 0
  live : ∀ c ∈ h.calls, ∀ t ∈ c.token, t ∉ h.fired
  alike : ∀ c ∈ h.calls, ∀ d ∈ h.calls, c.kind = d.kind
  closed : h.queue.closed → h.calls = []

theorem Calm.unwoken (calm : h.Calm) (mem : c ∈ h.calls) :
    c.woken = none ∧ h.isFired c = false := by
  have still := calm c mem
  simpa [isRunnable] using still

theorem Calm.promised (calm : h.Calm) (k : Kind) : h.promised k = 0 := by
  rw [Hall.promised, List.countP_eq_zero]
  intro c mem
  simp [(calm.unwoken mem).1]

/-- Nothing is promised any more, so who waits finds nothing. -/
theorem Heard.nothing (heard : h.Heard none) (calm : h.Calm) {k : Kind}
    (somebody : (h.bell k).waiting ≠ []) : h.queue.closed = false ∧ h.queue.supply k = 0 := by
  refine ⟨?_, ?_⟩
  · by_contra closed
    exact somebody (heard.closed (by simpa using closed) k)
  · simpa [calm.promised] using heard.promised k somebody

theorem Heard.rested (heard : h.Heard none) (calm : h.Calm)
    (within : h.queue.buffer.length ≤ h.queue.capacity) (positive : 0 < h.queue.capacity) :
    h.Rested := by
  have waits : ∀ c ∈ h.calls, h.queue.closed = false ∧ h.queue.supply c.kind = 0 := by
    intro c mem
    have waiting := (heard.asleep c.kind c.id).mpr ⟨c, mem, rfl, rfl, (calm.unwoken mem).1⟩
    exact heard.nothing calm (List.ne_nil_of_mem waiting)
  have full : ∀ c ∈ h.calls, c.kind = .push → h.queue.size = h.queue.capacity := by
    intro c mem kind
    have used := (waits c mem).2
    rw [kind] at used
    simp only [supply, size] at *
    omega
  have empty : ∀ c ∈ h.calls, c.kind = .pop → h.queue.size = 0 := by
    intro c mem kind
    have used := (waits c mem).2
    rwa [kind] at used
  refine ⟨?_, ?_, ?_, ?_, ?_⟩
  · exact fun c mem kind => ⟨(waits c mem).1, full c mem kind⟩
  · exact fun c mem kind => ⟨(waits c mem).1, empty c mem kind⟩
  · intro c mem t token fired
    have live := (calm.unwoken mem).2
    simp only [Option.mem_def] at token
    simp [isFired, token, fired] at live
  · intro c mem d mem'
    cases kind : c.kind <;> cases kind' : d.kind
    · rfl
    · have := full c mem kind
      have := empty d mem' kind'
      omega
    · have := empty c mem kind
      have := full d mem' kind'
      omega
    · rfl
  · intro closed
    refine List.eq_nil_iff_forall_not_mem.mpr fun c mem => ?_
    rw [(waits c mem).1] at closed
    contradiction

end DecodePipeline.Queue.Hall
