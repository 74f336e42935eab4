import DecodePipeline.Text.Utf8
import Mathlib.Data.List.Basic
import Mathlib.Data.String.Basic

/-!
Texts in their order are in the order of their UTF-8 bytes. The first byte of a character tells how many
follow, and the more follow the greater it is; among characters with as many, the bytes are the digits of
the code point to base 64.
-/

namespace DecodePipeline.Text

theorem toList_loop (bytes : ByteArray) (i : Nat) (before : List UInt8) :
    ByteArray.toList.loop bytes i before = before.reverse ++ bytes.data.toList.drop i := by
  fun_induction ByteArray.toList.loop bytes i before with
  | case1 i before inside ih =>
      have inside' : i < bytes.data.toList.length := by simpa using inside
      rw [ih, List.drop_eq_getElem_cons inside']
      simp [ByteArray.get!, inside]
  | case2 i before outside =>
      rw [List.drop_eq_nil_of_le (by simpa using Nat.le_of_not_lt outside), List.append_nil]

theorem encodeUtf8_eq_flatMap (s : String) :
    encodeUtf8 s = s.toList.flatMap String.utf8EncodeChar := by
  rw [encodeUtf8, ByteArray.toList, toList_loop, String.toUTF8_eq_toByteArray, ← String.utf8Encode_toList,
    List.utf8Encode, List.toList_data_toByteArray]
  rfl

/-- How many bytes follow the first one of a character. -/
def following (point : Nat) : Nat :=
  if point ≤ 0x7F then 0 else if point ≤ 0x7FF then 1 else if point ≤ 0xFFFF then 2 else 3

/-- The bits by which a first byte tells how many follow. -/
def mark : Nat → Nat
  | 0 => 0
  | 1 => 0xC0
  | 2 => 0xE0
  | _ => 0xF0

def leadByte (point : Nat) : Nat :=
  point / 64 ^ following point + mark (following point)

/-- The last `n` digits of a code point to base 64, each as a byte. -/
def continuationBytes (point : Nat) : Nat → List UInt8
  | 0 => []
  | n + 1 => UInt8.ofNat (point / 64 ^ n % 64 + 0x80) :: continuationBytes point n

theorem toNat_lt (c : Char) : c.toNat < 0x110000 := by
  obtain below | ⟨_, below⟩ := c.valid
  · exact below.trans (by decide)
  · exact below

theorem utf8EncodeChar_eq (c : Char) :
    String.utf8EncodeChar c =
      UInt8.ofNat (leadByte c.toNat) :: continuationBytes c.toNat (following c.toNat) := by
  have bound := toNat_lt c
  simp only [leadByte, following, String.utf8EncodeChar, Char.toNat_val]
  split
  · simp [mark, continuationBytes]
  · split
    · have lead : c.toNat / 64 % 32 = c.toNat / 64 := by omega
      simp [mark, continuationBytes, lead]
    · split
      · have lead : c.toNat / 4096 % 16 = c.toNat / 4096 := by omega
        simp [mark, continuationBytes, lead]
      · have lead : c.toNat / 262144 % 8 = c.toNat / 262144 := by omega
        simp [mark, continuationBytes, lead]

variable {v w : Nat}

theorem following_mono (less : v < w) : following v ≤ following w := by
  simp only [following]
  split_ifs <;> omega

theorem leadByte_lt_of_following_lt (fewer : following v < following w) : leadByte v < leadByte w := by
  simp only [leadByte, following] at fewer ⊢
  split_ifs at fewer ⊢ <;> simp only [mark] <;> omega

theorem leadByte_lt (bound : v < 0x110000) : leadByte v < 256 := by
  simp only [leadByte, following]
  split_ifs <;> simp only [mark] <;> omega

theorem ofNat_lt_ofNat (less : v < w) (byte : w < 256) : UInt8.ofNat v < UInt8.ofNat w := by
  rw [UInt8.lt_iff_toNat_lt, UInt8.toNat_ofNat_of_lt' (less.trans byte), UInt8.toNat_ofNat_of_lt' byte]
  exact less

/-- Numbers that agree but for their last `n` digits are told apart by those, whatever comes after. By
induction on `n`, where the first digit that differs decides. -/
theorem continuationBytes_lt (less : v < w) (n : Nat) (alike : v / 64 ^ n = w / 64 ^ n) (x y : List UInt8) :
    continuationBytes v n ++ x < continuationBytes w n ++ y := by
  induction n with
  | zero => omega
  | succ n ih =>
      have upper : v / 64 ^ n / 64 = w / 64 ^ n / 64 := by
        simpa only [Nat.div_div_eq_div_mul, Nat.pow_succ] using alike
      have mono : v / 64 ^ n ≤ w / 64 ^ n := Nat.div_le_div_right less.le
      simp only [continuationBytes, List.cons_append]
      refine List.cons_lt_cons_iff.mpr ?_
      by_cases same : v / 64 ^ n = w / 64 ^ n
      · exact .inr ⟨by rw [same], ih same⟩
      · exact .inl (ofNat_lt_ofNat (by omega) (by omega))

theorem utf8EncodeChar_lt {c d : Char} (less : c < d) (x y : List UInt8) :
    String.utf8EncodeChar c ++ x < String.utf8EncodeChar d ++ y := by
  have less' : c.toNat < d.toNat := less
  have bound := toNat_lt d
  rw [utf8EncodeChar_eq, utf8EncodeChar_eq, List.cons_append, List.cons_append]
  refine List.cons_lt_cons_iff.mpr ?_
  obtain fewer | asMany := (following_mono less').lt_or_eq
  · exact .inl (ofNat_lt_ofNat (leadByte_lt_of_following_lt fewer) (leadByte_lt bound))
  · have mono : c.toNat / 64 ^ following d.toNat ≤ d.toNat / 64 ^ following d.toNat :=
      Nat.div_le_div_right less'.le
    by_cases same : c.toNat / 64 ^ following d.toNat = d.toNat / 64 ^ following d.toNat
    · refine .inr ⟨by rw [leadByte, leadByte, asMany, same], ?_⟩
      rw [asMany]
      exact continuationBytes_lt less' _ same x y
    · have lead : leadByte c.toNat < leadByte d.toNat := by
        rw [leadByte, leadByte, asMany]
        omega
      exact .inl (ofNat_lt_ofNat lead (leadByte_lt bound))

theorem flatMap_utf8EncodeChar_lt {cs ds : List Char} (less : cs < ds) :
    cs.flatMap String.utf8EncodeChar < ds.flatMap String.utf8EncodeChar := by
  induction ds generalizing cs with
  | nil => exact absurd less (List.not_lt_nil cs)
  | cons d ds ih =>
      cases cs with
      | nil =>
          rw [List.flatMap_nil, List.flatMap_cons, utf8EncodeChar_eq, List.cons_append]
          exact List.nil_lt_cons _ _
      | cons c cs =>
          rw [List.flatMap_cons, List.flatMap_cons]
          obtain first | ⟨rfl, rest⟩ := List.cons_lt_cons_iff.mp less
          · exact utf8EncodeChar_lt first _ _
          · exact List.append_left_lt (ih rest)

theorem encodeUtf8_lt {s t : String} (less : s < t) : encodeUtf8 s < encodeUtf8 t := by
  rw [encodeUtf8_eq_flatMap, encodeUtf8_eq_flatMap]
  exact flatMap_utf8EncodeChar_lt (String.lt_iff_toList_lt.mp less)

end DecodePipeline.Text
