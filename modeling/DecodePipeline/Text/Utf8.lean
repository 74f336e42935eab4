/-!
Decoding bytes that claim to be UTF-8. `decodeLossy` never fails: each maximal part of the input that
is no prefix of a well-formed sequence becomes one replacement character.
-/

namespace DecodePipeline.Text

/-- The range that the second byte of a sequence must lie in, and the sequence's length, by first byte. -/
def sequenceShape (lead : UInt8) : Option (Nat × UInt8 × UInt8) :=
  if 0xC2 ≤ lead ∧ lead ≤ 0xDF then some (2, 0x80, 0xBF)
  else if lead = 0xE0 then some (3, 0xA0, 0xBF)
  else if lead = 0xED then some (3, 0x80, 0x9F)
  else if 0xE1 ≤ lead ∧ lead ≤ 0xEF then some (3, 0x80, 0xBF)
  else if lead = 0xF0 then some (4, 0x90, 0xBF)
  else if 0xF1 ≤ lead ∧ lead ≤ 0xF3 then some (4, 0x80, 0xBF)
  else if lead = 0xF4 then some (4, 0x80, 0x8F)
  else none

def isContinuation (b : UInt8) : Bool :=
  0x80 ≤ b && b ≤ 0xBF

def replacement : Char := '\uFFFD'

/-- Reads the continuation bytes of a sequence: the code point and the rest, or the rest after the
longest part that could have begun a sequence. -/
def continuations (need : Nat) (low high : UInt8) (point : Nat) (bytes : List UInt8) :
    Except (List UInt8) (Nat × List UInt8) :=
  match need, bytes with
  | 0, rest => .ok (point, rest)
  | _ + 1, [] => .error []
  | n + 1, b :: rest =>
    if low ≤ b ∧ b ≤ high then continuations n 0x80 0xBF (point * 64 + (b.toNat - 0x80)) rest
    else .error (b :: rest)

/-- One character from the front of a non-empty input: the character, whether it stands for itself, and
the rest. -/
def decodeOne (lead : UInt8) (rest : List UInt8) : Char × Bool × List UInt8 :=
  if lead < 0x80 then (Char.ofNat lead.toNat, true, rest)
  else
    match sequenceShape lead with
    | none => (replacement, false, rest)
    | some (size, low, high) =>
      let top := lead.toNat % (if size = 2 then 32 else if size = 3 then 16 else 8)
      match continuations (size - 1) low high top rest with
      | .ok (point, rest') => (Char.ofNat point, true, rest')
      | .error rest' => (replacement, false, rest')

/-- What is left after the continuation bytes, whichever way the reading ended. -/
def remaining : Except (List UInt8) (Nat × List UInt8) → List UInt8
  | .ok (_, rest) => rest
  | .error rest => rest

theorem continuations_length (need : Nat) (low high : UInt8) (point : Nat) (bytes : List UInt8) :
    (remaining (continuations need low high point bytes)).length ≤ bytes.length := by
  induction need generalizing low high point bytes with
  | zero => simp [continuations, remaining]
  | succ n ih =>
    cases bytes with
    | nil => simp [continuations, remaining]
    | cons b rest =>
      by_cases h : low ≤ b ∧ b ≤ high
      · rw [continuations, if_pos h]
        exact Nat.le_succ_of_le (ih 0x80 0xBF (point * 64 + (b.toNat - 0x80)) rest)
      · rw [continuations, if_neg h]
        exact Nat.le_refl _

theorem decodeOne_length (lead : UInt8) (rest : List UInt8) :
    (decodeOne lead rest).2.2.length ≤ rest.length := by
  unfold decodeOne
  split
  · exact Nat.le_refl _
  · split
    · exact Nat.le_refl _
    · rename_i size low high _
      have h := continuations_length (size - 1) low high
        (lead.toNat % (if size = 2 then 32 else if size = 3 then 16 else 8)) rest
      dsimp only
      split
      · rename_i heq
        rw [heq] at h
        exact h
      · rename_i heq
        rw [heq] at h
        exact h

/-- The characters of a byte sequence, with a replacement character for what is not UTF-8. -/
def decodeLossyChars : List UInt8 → List Char
  | [] => []
  | lead :: rest =>
    let one := decodeOne lead rest
    one.1 :: decodeLossyChars one.2.2
termination_by bytes => bytes.length
decreasing_by
  have := decodeOne_length lead rest
  simp only [List.length_cons]; omega

def decodeLossy (bytes : List UInt8) : String :=
  String.ofList (decodeLossyChars bytes)

/-- Whether every part of the input is a well-formed sequence. -/
def isUtf8 : List UInt8 → Bool
  | [] => true
  | lead :: rest =>
    let one := decodeOne lead rest
    one.2.1 && isUtf8 one.2.2
termination_by bytes => bytes.length
decreasing_by
  have := decodeOne_length lead rest
  simp only [List.length_cons]; omega

def encodeUtf8 (s : String) : List UInt8 :=
  s.toUTF8.toList

end DecodePipeline.Text
