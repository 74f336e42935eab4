import DecodePipeline.Glob.Search
import DecodePipeline.Proofs.Path

/-!
Escaped text in patterns. It is read as the text itself: what it was escaped from, and nothing else, it
matches, and slashes stay where they are.
-/

namespace DecodePipeline.Glob

/-! ## Escaped text -/

/-- A character that stands for something else in a pattern. -/
def IsSpecial (c : Char) : Prop := c = '?' ∨ c = '*' ∨ c = '[' ∨ c = ']'

instance (c : Char) : Decidable (IsSpecial c) := inferInstanceAs (Decidable (_ ∨ _))

def escaped (cs : List Char) : List Char :=
  cs.flatMap fun c => if IsSpecial c then ['[', c, ']'] else [c]

theorem toList_escape (text : String) : (escape text).toList = escaped text.toList := by
  rw [escape, String.toList_ofList]
  rfl

/-- What an escaped character is read as. -/
def quoted (c : Char) : Token := if IsSpecial c then .within [Span.single c] else .char c

theorem read?_escaped (cs : List Char) : Pattern.read? (escaped cs) = some (cs.map quoted) := by
  induction cs with
  | nil => simp [escaped, Pattern.read?]
  | cons c cs ih =>
      by_cases special : IsSpecial c
      · have eq : escaped (c :: cs) = '[' :: c :: ']' :: escaped cs := by
          simp [escaped, special]
        rw [eq]
        have inside : Pattern.enclosed? (c :: ']' :: escaped cs) = some ([c], escaped cs) := by
          simp [Pattern.enclosed?]
        have other : c ≠ '!' := by
          rintro rfl
          revert special
          decide
        rw [Pattern.read?]
        · split
          · simp_all
          · simp_all [quoted, Span.list]
        · simpa using other
      · have eq : escaped (c :: cs) = c :: escaped cs := by
          simp [escaped, special]
        rw [eq]
        simp only [IsSpecial, not_or] at special
        rw [Pattern.read?]
        · simp [ih, quoted, IsSpecial, special]
        all_goals simp [special]

theorem takes_quoted {c d : Char} : (quoted c).takes d ↔ d = c := by
  simp only [quoted]
  split_ifs
  · have same : c ≤ d ∧ d ≤ c ↔ d = c := ⟨fun h => le_antisymm h.2 h.1, by rintro rfl; simp⟩
    simpa [Token.takes, Span.contains, Span.single] using same
  · simp [Token.takes]

theorem accepts_cons {t : Token} (single : t ≠ .anyChars) (p : Pattern) (name : List Char) :
    Pattern.accepts (t :: p) name ↔ ∃ c rest, name = c :: rest ∧ t.takes c ∧ p.accepts rest := by
  cases name <;> cases t <;> simp_all [Pattern.accepts]

/-- An escaped text is matched by itself alone. -/
theorem accepts_quoted (cs name : List Char) :
    Pattern.accepts (cs.map quoted) name ↔ name = cs := by
  induction cs generalizing name with
  | nil => simp [Pattern.accepts]
  | cons c cs ih =>
      have single : quoted c ≠ .anyChars := by
        simp only [quoted]
        split_ifs <;> simp
      simp [accepts_cons single, takes_quoted, ih]

/-- Escaping keeps slashes where they are. -/
theorem splitSlash_escaped (cs : List Char) :
    Path.splitSlash (escaped cs) = (Path.splitSlash cs).map escaped := by
  induction cs with
  | nil => rfl
  | cons c cs ih =>
      obtain ⟨first, rest, eq⟩ := List.exists_cons_of_ne_nil (Path.splitSlash_ne_nil cs)
      rw [eq] at ih
      by_cases special : IsSpecial c
      · have other : c ≠ '/' := by
          rintro rfl
          revert special
          decide
        have bracketed : escaped (c :: cs) = '[' :: c :: ']' :: escaped cs := by
          simp [escaped, special]
        rw [bracketed]
        simp [Path.splitSlash, ih, eq, other]
        simp [escaped, special]
      · have plain : escaped (c :: cs) = c :: escaped cs := by
          simp [escaped, special]
        rw [plain]
        simp only [Path.splitSlash, ih, eq]
        split_ifs
        · simp [escaped]
        · simp [escaped, special]

/-! ## Escaped pieces -/

/-- What an escaped piece is read as: the name itself where nothing had to be escaped. -/
def quotedPiece (cs : List Char) : Piece :=
  if cs.any (IsSpecial ·) then .pattern (cs.map quoted) else .literal (String.ofList cs)

theorem mapM_quoted (cs : List Char) :
    (cs.map quoted).mapM Token.char? = if cs.any (IsSpecial ·) then none else some cs := by
  induction cs with
  | nil => simp
  | cons c cs ih =>
      by_cases special : IsSpecial c
      · simp [quoted, special, Token.char?]
      · simp only [List.map_cons, List.mapM_cons, ih, quoted, special, if_false, Token.char?,
          List.any_cons, decide_false, Bool.false_or]
        split_ifs <;> rfl

theorem read?_piece_escaped (cs : List Char) : Piece.read? (escaped cs) = some (quotedPiece cs) := by
  have other : escaped cs ≠ ['*', '*'] := by
    cases cs with
    | nil => simp [escaped]
    | cons c cs =>
        by_cases special : IsSpecial c
        · simp [escaped, special]
        · rintro eq
          simp [escaped, special] at eq
          exact special (by simp [IsSpecial, eq.1])
  rw [Piece.read?, if_neg other, read?_escaped, Option.map_some, Pattern.literal?, mapM_quoted,
    quotedPiece]
  split_ifs <;> rfl

end DecodePipeline.Glob
