import DecodePipeline.Json.Reader
import DecodePipeline.Json.Writer
import DecodePipeline.Proofs.Decimal
import Mathlib.Tactic.SplitIfs

/-!
Reading what was written. A value without decimals and without strings that have no text is read back from
its compact text, whatever else is in it.
-/

namespace DecodePipeline.Json

variable {c : Char} {cs rest : List Char} {fuel : Nat}

/-! ## Strings -/

theorem hexValue?_hexDigit : ∀ n < 16, hexValue? (hexDigit n) = some n := by decide

theorem unicodeEscape?_control (control : c.toNat < 0x20) (rest : List Char) :
    unicodeEscape? ('0' :: '0' :: hexDigit (c.toNat / 16) :: hexDigit (c.toNat % 16) :: rest) =
      some (some c, rest) := by
  have zero : hexValue? '0' = some 0 := by decide
  have unit : ((0 * 16 + 0) * 16 + c.toNat / 16) * 16 + c.toNat % 16 = c.toNat := by omega
  simp only [unicodeEscape?, hexUnit?, zero, hexValue?_hexDigit _ (show c.toNat / 16 < 16 by omega),
    hexValue?_hexDigit _ (show c.toNat % 16 < 16 by omega), bind, Option.bind, pure, unit]
  rw [if_neg (by omega), if_neg (by omega), Char.ofNat_toNat]

theorem pieces?_escaped (read : escape? cs = some (some c, rest)) :
    pieces? (fuel + 1) ('\\' :: cs) =
      (pieces? fuel rest).map fun p => (some c :: p.1, p.2) := by
  simp only [pieces?, read, bind, Option.bind, pure]
  cases pieces? fuel rest <;> rfl

theorem pieces?_plain (quote : c ≠ '"') (backslash : c ≠ '\\') (visible : ¬c.toNat < 0x20) :
    pieces? (fuel + 1) (c :: rest) = (pieces? fuel rest).map fun p => (some c :: p.1, p.2) := by
  rw [pieces?]
  · simp only [visible, if_false, bind, Option.bind, pure]
    cases pieces? fuel rest <;> rfl
  · exact quote
  · exact backslash

/-- A character is read back from its written form. -/
theorem pieces?_escapeChar (fuel : Nat) (c : Char) (rest : List Char) :
    pieces? (fuel + 1) (escapeChar c ++ rest) =
      (pieces? fuel rest).map fun p => (some c :: p.1, p.2) := by
  unfold escapeChar
  split_ifs with quote backslash backspace feed line ret tab control
  · subst quote; exact pieces?_escaped rfl
  · subst backslash; exact pieces?_escaped rfl
  · subst backspace; exact pieces?_escaped rfl
  · subst feed; exact pieces?_escaped rfl
  · subst line; exact pieces?_escaped rfl
  · subst ret; exact pieces?_escaped rfl
  · subst tab; exact pieces?_escaped rfl
  · exact pieces?_escaped (unicodeEscape?_control control rest)
  · exact pieces?_plain quote backslash control

theorem pieces?_flatMap_escapeChar (cs rest : List Char) (enough : cs.length < fuel) :
    pieces? fuel (cs.flatMap escapeChar ++ '"' :: rest) = some (cs.map some, rest) := by
  induction cs generalizing fuel with
  | nil =>
      obtain ⟨fuel, rfl⟩ := Nat.exists_eq_succ_of_ne_zero (Nat.ne_of_gt enough)
      rfl
  | cons c cs ih =>
      obtain ⟨fuel, rfl⟩ := Nat.exists_eq_succ_of_ne_zero (Nat.ne_zero_of_lt enough)
      rw [List.flatMap_cons, List.append_assoc, pieces?_escapeChar,
        ih (Nat.lt_of_succ_lt_succ enough)]
      rfl

theorem textOfPieces?_map_some (cs : List Char) : textOfPieces? (cs.map some) = some cs := by
  induction cs with
  | nil => rfl
  | cons c cs ih => simp [textOfPieces?, ih]

theorem length_le_flatMap_escapeChar (cs : List Char) :
    cs.length ≤ (cs.flatMap escapeChar).length := by
  induction cs with
  | nil => exact Nat.le_refl 0
  | cons c cs ih =>
      have one : 0 < (escapeChar c).length := by
        unfold escapeChar
        split_ifs <;> exact Nat.succ_pos _
      rw [List.flatMap_cons, List.length_append, List.length_cons]
      omega

/-- A string is read back behind its opening quote. -/
theorem string?_escaped (s : String) (rest : List Char) :
    string? (s.toList.flatMap escapeChar ++ '"' :: rest) = some (some s, rest) := by
  have long := length_le_flatMap_escapeChar s.toList
  rw [string?, pieces?_flatMap_escapeChar _ _ (by simp only [List.length_append]; omega)]
  simp [textOfPieces?_map_some]

/-! ## Numbers -/

/-- A text that does not go on with the number before it. -/
def Ends (rest : List Char) : Prop :=
  ∀ c, rest.head? = some c → Decimal.isDigit c = false ∧ c ≠ '.' ∧ c ≠ 'e' ∧ c ≠ 'E'

theorem Ends.stops (ends : Ends rest) : Decimal.Stops rest := fun c first => (ends c first).1

theorem ends_nil : Ends [] := by simp [Ends]

theorem ends_cons (other : Decimal.isDigit c = false ∧ c ≠ '.' ∧ c ≠ 'e' ∧ c ≠ 'E') :
    Ends (c :: rest) := by
  rintro _ ⟨⟩
  exact other

theorem fraction?_of_ends (ends : Ends rest) : fraction? rest = some ([], rest) := by
  cases rest with
  | nil => rfl
  | cons c rest =>
      have := (ends c rfl).2.1
      rw [fraction?.eq_def]
      split <;> simp_all

theorem exponent?_of_ends (ends : Ends rest) : exponent? rest = some (none, rest) := by
  cases rest with
  | nil => rfl
  | cons c rest => simp [exponent?, (ends c rfl).2.2]

theorem not_leading_zero (n : Nat) :
    ¬((Decimal.digits n).head? = some '0' ∧ 1 < (Decimal.digits n).length) := by
  rintro ⟨zero, long⟩
  obtain rfl | positive := Nat.eq_zero_or_pos n
  · exact absurd long (by decide)
  · exact Decimal.head?_digits positive zero

theorem number?_intChars (i : Int) (ends : Ends rest) :
    number? (intChars i ++ rest) = some (.int i, rest) := by
  have all : ∀ c ∈ Decimal.digits i.natAbs, Decimal.isDigit c := fun _ =>
    Decimal.isDigit_of_mem_digits
  have whole := Decimal.takeWhile_append all ends.stops
  have after := Decimal.dropWhile_append all ends.stops
  unfold intChars
  split_ifs with negative
  · have nonzero : i.natAbs ≠ 0 := by omega
    have value : -(i.natAbs : Int) = i := by omega
    generalize i.natAbs = n at all whole after nonzero value ⊢
    rw [List.append_assoc, List.singleton_append, number?]
    simp [whole, after, Decimal.digits_ne_nil, not_leading_zero, fraction?_of_ends ends,
      exponent?_of_ends ends, Decimal.value_digits, nonzero, value]
  · rw [List.nil_append, number?]
    · simp [whole, after, Decimal.digits_ne_nil, not_leading_zero, fraction?_of_ends ends,
        exponent?_of_ends ends, Decimal.value_digits]
      omega
    · exact fun tail => Decimal.append_ne_cons all (Decimal.digits_ne_nil _) rfl rest tail

/-- How the text of a number begins. -/
theorem intChars_eq_cons (i : Int) :
    ∃ c cs, intChars i = c :: cs ∧ (c = '-' ∨ Decimal.isDigit c) := by
  unfold intChars
  split_ifs with negative
  · exact ⟨'-', _, rfl, .inl rfl⟩
  · obtain ⟨c, cs, digits, digit⟩ := Decimal.exists_cons_digits i.natAbs
    exact ⟨c, cs, digits, .inr digit⟩

theorem other_of_number (begins : c = '-' ∨ Decimal.isDigit c) {d : Char}
    (letter : Decimal.isDigit d = false) (unsigned : d ≠ '-') : c ≠ d := by
  rintro rfl
  exact begins.elim unsigned (by simp [letter])

theorem visible_of_number (begins : c = '-' ∨ Decimal.isDigit c) : isBlank c = false := by
  have space : c ≠ ' ' := other_of_number begins rfl (by decide)
  have line : c ≠ '\n' := other_of_number begins rfl (by decide)
  have tab : c ≠ '\t' := other_of_number begins rfl (by decide)
  have ret : c ≠ '\r' := other_of_number begins rfl (by decide)
  simp [isBlank, space, line, tab, ret]

theorem skipBlanks_cons (visible : isBlank c = false) : skipBlanks (c :: cs) = c :: cs :=
  List.dropWhile_cons_of_neg (by simp [visible])

/-- What begins with a sign or a digit is read as a number. -/
theorem value?_of_number (begins : c = '-' ∨ Decimal.isDigit c) :
    value? (fuel + 1) (c :: cs) = (number? (c :: cs)).map fun (n, rest) => (.num n, rest) := by
  rw [value?, skipBlanks_cons (visible_of_number begins)]
  split
  iterate 6
    · next eq => exact absurd (List.cons.inj eq).1 (other_of_number begins rfl (by decide))
  · rfl

/-- A bracket that is not closed at once opens elements. -/
theorem value?_of_bracket (visible : isBlank c = false) (inside : c ≠ ']') :
    value? (fuel + 1) ('[' :: c :: cs) =
      (elements? fuel (c :: cs)).map fun (items, rest) => (.arr items, rest) := by
  have opened : skipBlanks ('[' :: c :: cs) = '[' :: c :: cs := skipBlanks_cons rfl
  simp [value?, opened, skipBlanks_cons visible, inside]

theorem value?_of_brace :
    value? (fuel + 1) ('{' :: '"' :: cs) =
      (members? fuel ('"' :: cs)).map fun (members, rest) =>
        (match named? members with
          | some members => .obj members
          | none => .broken, rest) := by
  rw [value?, skipBlanks_cons rfl]
  rfl

/-! ## Values -/

/-- A value whose text names it: it holds no decimal, and no string without a text. -/
inductive Plain : Json → Prop where
  | null : Plain .null
  | bool (b : Bool) : Plain (.bool b)
  | int (i : Int) : Plain (.num (.int i))
  | str (s : String) : Plain (.str s)
  | arr (items : List Json) : (∀ j ∈ items, Plain j) → Plain (.arr items)
  | obj (members : List (String × Json)) : (∀ m ∈ members, Plain m.2) → Plain (.obj members)

/-- A value is read back from its text, with whatever follows as the rest. -/
def Reads (j : Json) : Prop :=
  ∀ fuel rest, (chars j).length ≤ fuel → Ends rest → value? fuel (chars j ++ rest) = some (j, rest)

/-- How the text of a value begins. -/
theorem chars_eq_cons {j : Json} (plain : Plain j) :
    ∃ c cs, chars j = c :: cs ∧ isBlank c = false ∧ c ≠ ']' := by
  cases plain with
  | null | str | arr | obj => exact ⟨_, _, rfl, rfl, by decide⟩
  | bool b => cases b <;> exact ⟨_, _, rfl, rfl, by decide⟩
  | int i =>
      obtain ⟨c, cs, eq, begins⟩ := intChars_eq_cons i
      exact ⟨c, cs, eq, visible_of_number begins, other_of_number begins rfl (by decide)⟩

theorem elements?_itemsChars {items : List Json} (rest : List Char) (filled : items ≠ [])
    (each : ∀ j ∈ items, Reads j) (enough : (itemsChars items).length < fuel) :
    elements? fuel (itemsChars items ++ ']' :: rest) = some (items, rest) := by
  induction items generalizing fuel with
  | nil => exact absurd rfl filled
  | cons j items ih =>
      obtain ⟨fuel, rfl⟩ := Nat.exists_eq_succ_of_ne_zero (Nat.ne_zero_of_lt enough)
      have first := each j List.mem_cons_self
      cases items with
      | nil =>
          simp only [itemsChars] at enough ⊢
          have read := first fuel (']' :: rest) (Nat.le_of_lt_succ enough) (ends_cons (by decide))
          simp [elements?, read, skipBlanks, isBlank]
      | cons j' items =>
          simp only [itemsChars, List.append_assoc, List.cons_append, List.length_append,
            List.length_cons] at enough ih ⊢
          have read := first fuel (',' :: (itemsChars (j' :: items) ++ ']' :: rest)) (by omega)
            (ends_cons (by decide))
          have shorter : (itemsChars (j' :: items)).length < fuel := by omega
          have others := ih (by simp) (fun j mem => each j (List.mem_cons_of_mem _ mem)) shorter
          simp [elements?, read, skipBlanks, isBlank, others]

theorem members?_membersChars {members : List (String × Json)} (rest : List Char)
    (filled : members ≠ []) (each : ∀ m ∈ members, Reads m.2)
    (enough : (membersChars members).length < fuel) :
    members? fuel (membersChars members ++ '}' :: rest) =
      some (members.map fun (name, j) => (some name, j), rest) := by
  induction members generalizing fuel with
  | nil => exact absurd rfl filled
  | cons m members ih =>
      obtain ⟨name, j⟩ := m
      obtain ⟨fuel, rfl⟩ := Nat.exists_eq_succ_of_ne_zero (Nat.ne_zero_of_lt enough)
      have first : Reads j := each _ List.mem_cons_self
      cases members with
      | nil =>
          simp only [membersChars, stringChars, List.append_assoc, List.cons_append,
            List.length_append, List.length_cons, List.nil_append] at enough ⊢
          have read := first fuel ('}' :: rest) (by omega) (ends_cons (by decide))
          simp [members?, string?_escaped, read, skipBlanks, isBlank]
      | cons m' members =>
          simp only [membersChars, stringChars, List.append_assoc, List.cons_append,
            List.length_append, List.length_cons, List.nil_append] at enough ih ⊢
          have read := first fuel (',' :: (membersChars (m' :: members) ++ '}' :: rest)) (by omega)
            (ends_cons (by decide))
          have shorter : (membersChars (m' :: members)).length < fuel := by omega
          have others := ih (by simp) (fun m mem => each m (List.mem_cons_of_mem _ mem)) shorter
          simp [members?, string?_escaped, read, skipBlanks, isBlank, others]

theorem named?_map_some (members : List (String × Json)) :
    named? (members.map fun (name, j) => (some name, j)) = some members := by
  induction members with
  | nil => rfl
  | cons m members ih => simp [named?, ih]

/-- A text that is not empty leaves fuel to begin with. -/
theorem reads_of_succ {j : Json} (plain : Plain j)
    (reads : ∀ fuel rest, (chars j).length ≤ fuel + 1 → Ends rest →
      value? (fuel + 1) (chars j ++ rest) = some (j, rest)) : Reads j := by
  intro fuel rest enough ends
  obtain ⟨c, cs, eq, _⟩ := chars_eq_cons plain
  cases fuel with
  | zero => simp [eq] at enough
  | succ fuel => exact reads fuel rest enough ends

theorem reads_chars {j : Json} (plain : Plain j) : Reads j := by
  induction plain with
  | null => exact reads_of_succ .null fun _ _ _ _ => rfl
  | bool b => exact reads_of_succ (.bool b) fun _ _ _ _ => by cases b <;> rfl
  | int i =>
      refine reads_of_succ (.int i) fun fuel rest _ ends => ?_
      obtain ⟨c, cs, eq, begins⟩ := intChars_eq_cons i
      have read := number?_intChars i ends
      rw [eq, List.cons_append] at read
      rw [chars, numberChars, eq, List.cons_append, value?_of_number begins, read]
      rfl
  | str s =>
      refine reads_of_succ (.str s) fun fuel rest _ _ => ?_
      simp [chars, stringChars, value?, skipBlanks, isBlank, string?_escaped]
  | arr items plain each =>
      refine reads_of_succ (.arr items plain) fun fuel rest enough _ => ?_
      simp only [chars, List.cons_append, List.append_assoc, List.nil_append, List.length_cons,
        List.length_append] at enough ⊢
      cases items with
      | nil => rfl
      | cons j items =>
          have shorter : (itemsChars (j :: items)).length < fuel := by omega
          have read := elements?_itemsChars rest (by simp) each shorter
          obtain ⟨c, cs, eq, visible, inside⟩ := chars_eq_cons (plain j List.mem_cons_self)
          have begins : ∃ cs, itemsChars (j :: items) ++ ']' :: rest = c :: cs := by
            cases items <;> simp [itemsChars, eq]
          obtain ⟨cs, begins⟩ := begins
          rw [begins] at read ⊢
          rw [value?_of_bracket visible inside, read]
          rfl
  | obj members plain each =>
      refine reads_of_succ (.obj members plain) fun fuel rest enough _ => ?_
      simp only [chars, List.cons_append, List.append_assoc, List.nil_append, List.length_cons,
        List.length_append] at enough ⊢
      cases members with
      | nil => rfl
      | cons m members =>
          have shorter : (membersChars (m :: members)).length < fuel := by omega
          have read := members?_membersChars rest (by simp) each shorter
          have begins : ∃ cs, membersChars (m :: members) ++ '}' :: rest = '"' :: cs := by
            cases members <;> simp [membersChars, stringChars]
          obtain ⟨cs, begins⟩ := begins
          rw [begins] at read ⊢
          simp only [value?_of_brace, read, Option.map_some, named?_map_some]

/-- Reading the text of a value gives the value back. -/
theorem read?_render {j : Json} (plain : Plain j) : read? (render j) = some j := by
  have read := reads_chars plain (2 * (chars j).length + 2) [] (by omega) ends_nil
  rw [List.append_nil] at read
  have done : skipBlanks [] = [] := rfl
  simp only [read?, render, String.toList_ofList, read, bind, Option.bind_some, done, if_true]

/-! ## Lines -/

theorem newline_notMem_escapeChar (c : Char) : '\n' ∉ escapeChar c := by
  have digits : ∀ n < 16, hexDigit n ≠ '\n' := by decide
  unfold escapeChar
  split_ifs with quote backslash backspace feed line ret tab control
  iterate 7
    · decide
  · have high := digits (c.toNat / 16) (by omega)
    have low := digits (c.toNat % 16) (by omega)
    simp [high.symm, low.symm]
  · simpa using Ne.symm line

theorem newline_notMem_stringChars (s : String) : '\n' ∉ stringChars s := by
  simp [stringChars, newline_notMem_escapeChar]

theorem newline_notMem_intChars (i : Int) : '\n' ∉ intChars i := by
  intro mem
  obtain sign | digit := List.mem_append.mp mem
  · split_ifs at sign <;> simp at sign
  · exact absurd (Decimal.isDigit_of_mem_digits digit) (by decide)

theorem newline_notMem_itemsChars {items : List Json} (each : ∀ j ∈ items, '\n' ∉ chars j) :
    '\n' ∉ itemsChars items := by
  induction items with
  | nil => exact List.not_mem_nil
  | cons j items ih =>
      obtain ⟨first, others⟩ := List.forall_mem_cons.mp each
      cases items with
      | nil => exact first
      | cons j' items => simpa [itemsChars, first] using ih others

theorem newline_notMem_membersChars {members : List (String × Json)}
    (each : ∀ m ∈ members, '\n' ∉ chars m.2) : '\n' ∉ membersChars members := by
  induction members with
  | nil => exact List.not_mem_nil
  | cons m members ih =>
      obtain ⟨first, others⟩ := List.forall_mem_cons.mp each
      cases members with
      | nil => simpa [membersChars, newline_notMem_stringChars] using first
      | cons m' members =>
          simpa [membersChars, newline_notMem_stringChars, first] using ih others

/-- A value is written in one line, whatever its strings hold. -/
theorem newline_notMem_render {j : Json} (plain : Plain j) : '\n' ∉ (render j).toList := by
  rw [render, String.toList_ofList]
  induction plain with
  | null => decide
  | bool b => cases b <;> decide
  | int i => exact newline_notMem_intChars i
  | str s => exact newline_notMem_stringChars s
  | arr items _ each => simpa [chars] using newline_notMem_itemsChars each
  | obj members _ each => simpa [chars] using newline_notMem_membersChars each

end DecodePipeline.Json
