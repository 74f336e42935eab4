import DecodePipeline.Decoder.Invocation
import DecodePipeline.Proofs.Frame
import Mathlib.Data.List.Infix

/-!
The names that a decoder makes of its template, against the names that are looked for. A decoder puts the
index in the place of every placeholder, also of one that comes from the output root or from the id; the
two agree exactly where neither of these holds a placeholder.
-/

namespace DecodePipeline

namespace Frame

/-- What stands for an index in a template. -/
def placeholder : List Char := ['%', '0', '4', 'd']

/-- Puts an index, padded to four digits, in the place of every placeholder. -/
def fill (index : Nat) : List Char → List Char
  | '%' :: '0' :: '4' :: 'd' :: rest => Decimal.padded 4 index ++ fill index rest
  | c :: rest => c :: fill index rest
  | [] => []

variable {index : Nat} {a b cs : List Char} {c : Char}

/-! ## Filling in -/

theorem fill_cons (other : ¬placeholder <+: c :: cs) : fill index (c :: cs) = c :: fill index cs := by
  rw [fill]
  rintro rest ⟨⟩ rfl
  exact other (List.prefix_append placeholder rest)

/-- A placeholder that begins in one text does not end in the next if that goes on with another
character. -/
theorem not_prefix_append (apart : ∀ c, b.head? = some c → c ∉ ['0', '4', 'd'])
    (other : ¬placeholder <+: c :: cs) : ¬placeholder <+: c :: (cs ++ b) := by
  rintro ⟨rest, eq⟩
  have follows (d : Char) (inside : d ∈ ['0', '4', 'd']) (tail : List Char) : b ≠ d :: tail := by
    rintro rfl
    exact apart d rfl inside
  match cs with
  | [] => exact follows '0' (by simp) _ (List.cons.inj eq).2.symm
  | [c₀] =>
      obtain ⟨_, _, eq⟩ : c = '%' ∧ c₀ = '0' ∧ b = '4' :: 'd' :: rest := by
        simpa [placeholder, eq_comm] using eq
      exact follows '4' (by simp) _ eq
  | [c₀, c₁] =>
      obtain ⟨_, _, _, eq⟩ : c = '%' ∧ c₀ = '0' ∧ c₁ = '4' ∧ b = 'd' :: rest := by
        simpa [placeholder, eq_comm] using eq
      exact follows 'd' (by simp) _ eq
  | c₀ :: c₁ :: c₂ :: cs =>
      obtain ⟨rfl, rfl, rfl, rfl, _⟩ :
          '%' = c ∧ '0' = c₀ ∧ '4' = c₁ ∧ 'd' = c₂ ∧ rest = cs ++ b := by
        simpa [placeholder] using eq
      exact other (List.prefix_append placeholder cs)

/-- The cases of filling in, from the front of a text. -/
theorem fill_induction {motive : List Char → Prop} (nil : motive [])
    (found : ∀ rest, motive rest → motive (placeholder ++ rest))
    (passed : ∀ c cs, ¬placeholder <+: c :: cs → motive cs → motive (c :: cs)) (cs : List Char) :
    motive cs := by
  induction cs using fill.induct with
  | case1 rest ih => exact found rest ih
  | case2 c cs other ih =>
      refine passed c cs ?_ ih
      rintro ⟨rest, eq⟩
      obtain ⟨first, rest⟩ := List.cons.inj eq
      exact other _ first.symm rest.symm
  | case3 => exact nil

theorem fill_append (apart : ∀ c, b.head? = some c → c ∉ ['0', '4', 'd']) :
    fill index (a ++ b) = fill index a ++ fill index b := by
  induction a using fill_induction with
  | nil => rfl
  | found rest ih =>
      calc fill index (placeholder ++ rest ++ b)
        _ = Decimal.padded 4 index ++ fill index (rest ++ b) := rfl
        _ = Decimal.padded 4 index ++ fill index rest ++ fill index b := by
            rw [ih, List.append_assoc]
  | passed c cs other ih =>
      rw [List.cons_append, fill_cons (not_prefix_append apart other), ih, fill_cons other]
      rfl

theorem length_le_length_fill (index : Nat) (cs : List Char) :
    cs.length ≤ (fill index cs).length := by
  induction cs using fill_induction with
  | nil => exact Nat.le_refl 0
  | found rest ih =>
      have long := Decimal.le_length_padded 4 index
      have filled : fill index (placeholder ++ rest) = Decimal.padded 4 index ++ fill index rest := rfl
      have four : placeholder.length = 4 := rfl
      rw [filled, List.length_append, List.length_append, four]
      omega
  | passed c cs other ih =>
      rw [fill_cons other]
      exact Nat.succ_le_succ ih

/-- Only a text without placeholders stays as it is. -/
theorem fill_eq_self_iff (index : Nat) : fill index cs = cs ↔ ¬placeholder <:+: cs := by
  induction cs using fill_induction with
  | nil => exact iff_of_true rfl (by decide)
  | found rest ih =>
      refine iff_of_false ?_ (fun free => free (List.prefix_append _ _).isInfix)
      exact Decimal.append_ne_cons (fun _ => Decimal.isDigit_of_mem_padded)
        (Decimal.padded_ne_nil 4 index) rfl _ _
  | passed c cs other ih => simp [fill_cons other, List.infix_cons_iff, other, ih]

/-- Filling in makes no text shorter, so that what is put into one of two does not make up for the
other. -/
theorem fill_append_fill_eq_iff :
    fill index a ++ fill index b = a ++ b ↔ fill index a = a ∧ fill index b = b := by
  constructor
  · intro same
    have lengths := congrArg List.length same
    simp only [List.length_append] at lengths
    have first := length_le_length_fill index a
    have second := length_le_length_fill index b
    exact List.append_inj same (by omega)
  · rintro ⟨first, second⟩
    rw [first, second]

/-! ## Paths -/

theorem fill_slash (b : List Char) : fill index ('/' :: b) = '/' :: fill index b :=
  fill_cons (by simp [placeholder, List.cons_prefix_cons])

theorem slash_notMem_fill (plain : '/' ∉ cs) : '/' ∉ fill index cs := by
  induction cs using fill_induction with
  | nil => exact List.not_mem_nil
  | found rest ih =>
      have outside : '/' ∉ rest := fun mem => plain (List.mem_append_right placeholder mem)
      have filled : fill index (placeholder ++ rest) = Decimal.padded 4 index ++ fill index rest := rfl
      rw [filled, List.mem_append, not_or]
      exact ⟨fun mem => absurd (Decimal.isDigit_of_mem_padded mem) (by decide), ih outside⟩
  | passed c cs other ih =>
      obtain ⟨first, outside⟩ := List.ne_and_not_mem_of_not_mem_cons plain
      rw [fill_cons other]
      exact List.not_mem_cons_of_ne_of_not_mem first (ih outside)

variable {path : String}

theorem fill_append_slash (a b : List Char) :
    fill index (a ++ '/' :: b) = fill index a ++ '/' :: fill index b := by
  rw [fill_append, fill_slash]
  rintro _ ⟨⟩
  decide

/-- No placeholder reaches across the slash of a joined path. -/
theorem fill_lead_append (path : String) (b : List Char) :
    fill index (Path.lead path ++ b) = fill index (Path.lead path) ++ fill index b := by
  by_cases left : path = ""
  · subst left
    rfl
  · obtain ⟨front, eq, _⟩ := Path.lead_eq left
    simp [eq, fill_append_slash, fill]

theorem fill_lead_eq_self_iff :
    fill index (Path.lead path) = Path.lead path ↔ fill index path.toList = path.toList := by
  by_cases left : path = ""
  · subst left
    rfl
  · obtain ⟨front, eq, own | own⟩ := Path.lead_eq left
    · rw [eq, own, fill_append_slash, fill]
      exact List.append_left_inj ['/']
    · rw [eq, own]

/-- A directory that is filled in still ends in its slash. -/
theorem lead_ofList_fill (index : Nat) (path : String) :
    Path.lead (String.ofList (fill index (Path.lead path))) = fill index (Path.lead path) := by
  by_cases left : path = ""
  · subst left
    rfl
  · obtain ⟨front, eq, _⟩ := Path.lead_eq left
    have ends : fill index (Path.lead path) = fill index front ++ ['/'] := by
      rw [eq, fill_append_slash, fill]
    rw [ends]
    simp [Path.lead]

/-! ## The template -/

variable {id : String}

theorem toList_template (id : String) :
    (template id).toList = id.toList ++ (separator ++ placeholder ++ suffix) := by
  simp [template, fileExtension, separator, placeholder, suffix]

theorem slash_notMem_template (plain : '/' ∉ id.toList) : '/' ∉ (template id).toList := by
  simp [toList_template, plain, separator, placeholder, suffix]

/-- The template has one placeholder besides those of the id. -/
theorem fill_template (index : Nat) (id : String) :
    fill index (template id).toList =
      fill index id.toList ++ (separator ++ Decimal.padded 4 index ++ suffix) := by
  have apart : ∀ c, (separator ++ placeholder ++ suffix).head? = some c → c ∉ ['0', '4', 'd'] := by
    rintro _ ⟨⟩
    decide
  rw [toList_template, fill_append apart]
  simp [separator, suffix, placeholder, fill]

theorem toList_name (id : String) (index : Nat) :
    (name id index).toList = id.toList ++ (separator ++ Decimal.padded 4 index ++ suffix) := by
  simp [name]

end Frame

namespace Decoder

open DecodePipeline.Frame

variable {d : Decoder} {id : String} {index : Nat}

/-- The path that a decoder makes of its template for an index. -/
def writtenPath (d : Decoder) (id : String) (index : Nat) : String :=
  String.ofList (fill index (d.outputTemplate id).toList)

/-- The path under which the frame of an index is looked for. -/
def framePath (d : Decoder) (id : String) (index : Nat) : String :=
  Path.join (d.itemDirectory id) (Frame.name id index)

theorem toList_writtenPath (plain : '/' ∉ id.toList) :
    (d.writtenPath id index).toList = fill index (Path.lead (d.itemDirectory id)) ++
      (fill index id.toList ++ (separator ++ Decimal.padded 4 index ++ suffix)) := by
  rw [writtenPath, String.toList_ofList, outputTemplate, Path.toList_join (slash_notMem_template plain),
    fill_lead_append, fill_template]

/-- What is written lies under a name that spells the index behind the id, that filled in as well. -/
theorem writtenPath_eq_join (plain : '/' ∉ id.toList) :
    d.writtenPath id index =
      Path.join (String.ofList (fill index (Path.lead (d.itemDirectory id))))
        (spelled (String.ofList (fill index id.toList)) (Decimal.padded 4 index)) := by
  have outside : '/' ∉ (String.ofList (fill index id.toList)).toList := by
    simpa using slash_notMem_fill plain
  have digits (c : Char) : c ∈ Decimal.padded 4 index → Decimal.isDigit c :=
    Decimal.isDigit_of_mem_padded
  refine String.toList_injective ?_
  rw [toList_writtenPath plain, Path.toList_join (slash_notMem_spelled outside digits),
    lead_ofList_fill, toList_spelled]
  simp

theorem writtenPath_eq_framePath_iff (plain : '/' ∉ id.toList) :
    d.writtenPath id index = d.framePath id index ↔
      ¬placeholder <:+: d.outputRoot.toList ∧ ¬placeholder <:+: id.toList := by
  have named : '/' ∉ (Frame.name id index).toList :=
    name_eq_spelled id index ▸ slash_notMem_spelled plain fun _ => Decimal.isDigit_of_mem_padded
  have directory : fill index (Path.lead (d.itemDirectory id)) = Path.lead (d.itemDirectory id) ↔
      ¬placeholder <:+: d.outputRoot.toList ∧ ¬placeholder <:+: id.toList := by
    rw [fill_lead_eq_self_iff, itemDirectory, Path.toList_join plain, fill_lead_append,
      fill_append_fill_eq_iff, fill_lead_eq_self_iff, fill_eq_self_iff, fill_eq_self_iff]
  rw [← String.toList_inj, toList_writtenPath plain, framePath, Path.toList_join named, toList_name,
    ← List.append_assoc (fill index _), ← List.append_assoc (Path.lead _), List.append_left_inj,
    fill_append_fill_eq_iff, directory, fill_eq_self_iff, and_assoc, and_self]

theorem index?_writtenPath_iff (plain : '/' ∉ id.toList) (small : index < Decimal.limit32) :
    Frame.index? id (d.writtenPath id index) = some index ↔ ¬placeholder <:+: id.toList := by
  have outside : '/' ∉ (String.ofList (fill index id.toList)).toList := by
    simpa using slash_notMem_fill plain
  have numeral := numeral_padded small
  rw [index?_eq_some_iff, writtenPath_eq_join plain, fileName?_join_spelled outside numeral,
    ← fill_eq_self_iff index]
  constructor
  · rintro ⟨ds, numeral', same, _⟩
    obtain ⟨own, _⟩ := spelled_inj numeral numeral' (Option.some.inj same)
    simpa using congrArg String.toList own
  · intro own
    exact ⟨_, numeral, by rw [own, String.ofList_toList], Decimal.value_padded 4 index⟩

/-- The path that a decoder makes of its template is the one where the frame is looked for, exactly if
neither the output root nor the id holds a placeholder. The frame looked for has the index, and what is
written is read as it exactly if the id holds no placeholder. -/
theorem template_names_frames_iff (d : Decoder) (plain : '/' ∉ id.toList)
    (small : index < Decimal.limit32) :
    (d.writtenPath id index = d.framePath id index ↔
      ¬placeholder <:+: d.outputRoot.toList ∧ ¬placeholder <:+: id.toList) ∧
    Frame.index? id (d.framePath id index) = some index ∧
    (Frame.index? id (d.writtenPath id index) = some index ↔ ¬placeholder <:+: id.toList) :=
  ⟨writtenPath_eq_framePath_iff plain, index?_join_name plain small _,
    index?_writtenPath_iff plain small⟩

/-- Other signs of formats than the placeholder itself do no harm. -/
theorem template_names_frames_iff_percent :
    let d : Decoder := { program := "/decoder", outputRoot := "100%" }
    d.outputTemplate "a%d04_dec_" = "100%/a%d04_dec_/a%d04_dec__dec_%04d.ply" ∧
      d.writtenPath "a%d04_dec_" 12345 = "100%/a%d04_dec_/a%d04_dec__dec_12345.ply" ∧
        Frame.index? "a%d04_dec_" (d.writtenPath "a%d04_dec_" 12345) = some 12345 := by
  intro d
  have plain : '/' ∉ "a%d04_dec_".toList := by decide
  have small : 12345 < Decimal.limit32 := by decide
  obtain ⟨agrees, _, read⟩ := template_names_frames_iff d plain small
  exact ⟨by decide +kernel, (agrees.mpr ⟨by decide, by decide⟩).trans (by decide +kernel),
    read.mpr (by decide)⟩

/-- A placeholder in the id or in the output root is filled in as well; then what is written is not what is
looked for. -/
theorem writes_elsewhere_than_looked_for :
    let d : Decoder := { program := "/decoder", outputRoot := "out" }
    let d' : Decoder := { program := "/decoder", outputRoot := "out%04d" }
    '/' ∉ "a%04d".toList ∧ d.writtenPath "a%04d" 0 = "out/a0000/a0000_dec_0000.ply" ∧
      d.framePath "a%04d" 0 = "out/a%04d/a%04d_dec_0000.ply" ∧
        d.writtenPath "a%04d" 0 ≠ d.framePath "a%04d" 0 ∧
          Frame.index? "a%04d" (d.writtenPath "a%04d" 0) = none ∧
            d'.writtenPath "a" 0 ≠ d'.framePath "a" 0 := by
  decide +kernel

end Decoder

end DecodePipeline
