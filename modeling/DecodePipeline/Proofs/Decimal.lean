import DecodePipeline.Decimal.Natural
import Mathlib.Algebra.Group.Nat.Defs

/-!
What is written for a number: digits only, as many as are asked for, and their value is the number. A
reader that takes digits off a text gets all of them if no digit follows.
-/

namespace DecodePipeline.Decimal

variable {c : Char} {n width : Nat} {cs rest : List Char}

theorem isDigit_iff : isDigit c ↔ '0'.toNat ≤ c.toNat ∧ c.toNat ≤ '9'.toNat := by
  simp [isDigit, Char.le_def, UInt32.le_iff_toNat_le]

theorem read?_eq_some_iff :
    read? cs = some n ↔ cs ≠ [] ∧ (∀ c ∈ cs, isDigit c) ∧ value cs = n := by
  simp [read?, isNumeral, and_assoc]

/-- A sign in front is no digit, so a text is not read with it and without it. -/
theorem readBelow?_eq_some_iff {limit : Nat} :
    readBelow? limit cs = some n ↔
      ∃ numeral, (cs = numeral ∨ cs = '+' :: numeral) ∧ read? numeral = some n ∧ n < limit := by
  have bounded (numeral : List Char) :
      ((read? numeral).bind fun m => if m < limit then some m else none) = some n ↔
        read? numeral = some n ∧ n < limit := by
    simp only [Option.bind_eq_some_iff, Option.ite_none_right_eq_some, Option.some.injEq]
    constructor
    · rintro ⟨m, read, below, rfl⟩
      exact ⟨read, below⟩
    · rintro ⟨read, below⟩
      exact ⟨n, read, below, rfl⟩
  unfold readBelow?
  split
  · next rest =>
      have sign : read? ('+' :: rest) = none := by simp [read?, isNumeral, isDigit]
      refine (bounded rest).trans ⟨fun ⟨read, below⟩ => ⟨rest, .inr rfl, read, below⟩, ?_⟩
      rintro ⟨numeral, rfl | eq, read, below⟩
      · rw [sign] at read
        cases read
      · obtain rfl : rest = numeral := (List.cons.inj eq).2
        exact ⟨read, below⟩
  · next unsigned =>
      refine (bounded cs).trans ⟨fun ⟨read, below⟩ => ⟨cs, .inl rfl, read, below⟩, ?_⟩
      rintro ⟨numeral, rfl | eq, read, below⟩
      · exact ⟨read, below⟩
      · exact (unsigned numeral eq).elim

theorem value_eq_ofDigitChars (cs : List Char) : value cs = Nat.ofDigitChars 10 cs 0 := by
  simp [value, digitValue, Nat.ofDigitChars_eq_foldl, Nat.mul_comm]

theorem value_digits (n : Nat) : value (digits n) = n := by
  rw [value_eq_ofDigitChars, digits, Nat.ofDigitChars_ten_toDigits]

theorem value_padded (width n : Nat) : value (padded width n) = n := by
  rw [value_eq_ofDigitChars, padded, Nat.ofDigitChars_append, Nat.ofDigitChars_replicate_zero,
    Nat.mul_zero, digits, Nat.ofDigitChars_ten_toDigits]

theorem digits_ne_nil (n : Nat) : digits n ≠ [] :=
  Nat.toDigits_ne_nil

theorem isDigit_of_mem_digits (mem : c ∈ digits n) : isDigit c := by
  have := Nat.isDigit_of_mem_toDigits (by omega) (by omega) mem
  rwa [Char.isDigit_iff_toNat, ← isDigit_iff] at this

theorem exists_cons_digits (n : Nat) : ∃ c cs, digits n = c :: cs ∧ isDigit c := by
  obtain ⟨c, cs, eq⟩ := List.exists_cons_of_ne_nil (digits_ne_nil n)
  exact ⟨c, cs, eq, isDigit_of_mem_digits (n := n) (by rw [eq]; exact List.mem_cons_self)⟩

theorem isDigit_of_mem_padded (mem : c ∈ padded width n) : isDigit c := by
  obtain zero | mem := List.mem_append.mp mem
  · rw [List.eq_of_mem_replicate zero]
    rfl
  · exact isDigit_of_mem_digits mem

theorem padded_ne_nil (width n : Nat) : padded width n ≠ [] := by
  simp [padded, digits_ne_nil]

theorem le_length_padded (width n : Nat) : width ≤ (padded width n).length := by
  simp only [padded, List.length_append, List.length_replicate]
  omega

theorem length_padded (positive : 0 < width) (small : n < 10 ^ width) :
    (padded width n).length = width := by
  have short : (digits n).length ≤ width :=
    (Nat.length_toDigits_le_iff (by omega) positive).mpr small
  simp only [padded, List.length_append, List.length_replicate]
  omega

/-- A numeral has no zero in front unless it is zero itself. -/
theorem head?_digits (positive : 0 < n) : (digits n).head? ≠ some '0' := by
  induction n using Nat.strongRecOn with
  | ind n ih =>
      rw [digits, Nat.toDigits_eq_if (by omega)]
      split
      · next small => simpa using Nat.ne_of_gt positive
      · next large =>
          have front := ih (n / 10) (by omega) (by omega)
          obtain ⟨c, cs, eq, _⟩ := exists_cons_digits (n / 10)
          rw [eq] at front
          rw [← digits, eq]
          simpa using front

/-- A text that does not go on with a digit. -/
def Stops (rest : List Char) : Prop := ∀ c, rest.head? = some c → isDigit c = false

theorem stops_cons (other : isDigit c = false) : Stops (c :: rest) := by
  rintro _ ⟨⟩
  exact other

theorem Stops.take (stops : Stops rest) (k : Nat) : Stops (rest.take k) := by
  cases k with
  | zero => simp [Stops]
  | succ k =>
      cases rest with
      | nil => exact stops
      | cons c rest => exact stops_cons (stops c rfl)

theorem Stops.takeWhile (stops : Stops rest) : rest.takeWhile isDigit = [] := by
  cases rest with
  | nil => rfl
  | cons c rest => simp [stops c rfl]

theorem Stops.dropWhile (stops : Stops rest) : rest.dropWhile isDigit = rest := by
  cases rest with
  | nil => rfl
  | cons c rest => simp [stops c rfl]

/-- A text that begins with a digit begins with nothing else. -/
theorem append_ne_cons (all : ∀ c ∈ cs, isDigit c) (filled : cs ≠ []) (other : isDigit c = false)
    (rest tail : List Char) : cs ++ rest ≠ c :: tail := by
  obtain ⟨d, cs, rfl⟩ := List.exists_cons_of_ne_nil filled
  intro eq
  obtain ⟨rfl, _⟩ := List.cons.inj eq
  exact absurd (all _ List.mem_cons_self) (by simp [other])

theorem takeWhile_append (all : ∀ c ∈ cs, isDigit c) (stops : Stops rest) :
    (cs ++ rest).takeWhile isDigit = cs := by
  rw [List.takeWhile_append_of_pos all, stops.takeWhile, List.append_nil]

theorem dropWhile_append (all : ∀ c ∈ cs, isDigit c) (stops : Stops rest) :
    (cs ++ rest).dropWhile isDigit = rest := by
  rw [List.dropWhile_append_of_pos all, stops.dropWhile]

/-- Digits at the end of a text are told from what is before them. -/
theorem append_inj_of_stops {front front' cs' : List Char} (all : ∀ c ∈ cs, isDigit c)
    (all' : ∀ c ∈ cs', isDigit c) (stops : Stops front.reverse) (stops' : Stops front'.reverse)
    (same : front ++ cs = front' ++ cs') : front = front' ∧ cs = cs' := by
  have backwards : cs.reverse ++ front.reverse = cs'.reverse ++ front'.reverse := by
    simpa using congrArg List.reverse same
  have last : cs.reverse = cs'.reverse := by
    calc cs.reverse
      _ = (cs.reverse ++ front.reverse).takeWhile isDigit :=
          (takeWhile_append (by simpa using all) stops).symm
      _ = (cs'.reverse ++ front'.reverse).takeWhile isDigit := by rw [backwards]
      _ = cs'.reverse := takeWhile_append (by simpa using all') stops'
  obtain rfl : cs = cs' := List.reverse_inj.mp last
  exact ⟨List.append_cancel_right same, rfl⟩

end DecodePipeline.Decimal
