import DecodePipeline.Process.Outcome
import DecodePipeline.Process.Tail
import Mathlib.Data.List.Basic

/-!
What is kept of a stream that comes in chunks is its end, as much of it as the limit allows. The end is
known by the stream alone, so nothing that is made of it tells where one chunk ended and the next began.
-/

namespace DecodePipeline

namespace Tail

variable {stream bytes bytes' : List UInt8} {t : Tail}

/-- The bytes are the end of the stream: all of it, or as much as is kept. -/
structure EndOf (stream bytes : List UInt8) : Prop where
  suffix : bytes <:+ stream
  length : bytes.length = min limit stream.length

theorem EndOf.unique (first : EndOf stream bytes) (second : EndOf stream bytes') : bytes = bytes' := by
  have same : bytes.length = bytes'.length := first.length.trans second.length.symm
  have inside : bytes <:+ bytes' :=
    List.suffix_of_suffix_length_le first.suffix second.suffix (Nat.le_of_eq same)
  exact inside.eq_of_length same

theorem bytes_append (t : Tail) (chunk : List UInt8) :
    (t.append chunk).bytes = (t.bytes ++ chunk).drop ((t.bytes ++ chunk).length - limit) := by
  simp only [Tail.append]

/-- What is dropped from the front was no part of the end, however long the chunk is. -/
theorem EndOf.append (ends : EndOf stream t.bytes) (chunk : List UInt8) :
    EndOf (stream ++ chunk) (t.append chunk).bytes where
  suffix := by
    obtain ⟨front, eq⟩ := ends.suffix
    have all : t.bytes ++ chunk <:+ stream ++ chunk :=
      ⟨front, by rw [← List.append_assoc, eq]⟩
    rw [bytes_append]
    exact (List.drop_suffix _ _).trans all
  length := by
    have kept := ends.length
    rw [bytes_append, List.length_drop, List.length_append, List.length_append]
    omega

theorem EndOf.foldl (ends : EndOf stream t.bytes) (chunks : List (List UInt8)) :
    EndOf (stream ++ chunks.flatten) (chunks.foldl Tail.append t).bytes := by
  induction chunks generalizing stream t with
  | nil => simpa using ends
  | cons chunk chunks ih =>
      have later := ih (ends.append chunk)
      simpa only [List.foldl_cons, List.flatten_cons, List.append_assoc] using later

theorem endOf_ofChunks (chunks : List (List UInt8)) :
    EndOf chunks.flatten (ofChunks chunks).bytes := by
  have nothing : EndOf [] empty.bytes := ⟨List.suffix_refl [], rfl⟩
  exact nothing.foldl chunks

theorem length_append_le (t : Tail) (chunk : List UInt8) : (t.append chunk).bytes.length ≤ limit := by
  rw [bytes_append, List.length_drop]
  omega

/-- Streams that are alike but for their chunks have one end. -/
theorem ofChunks_congr {chunks chunks' : List (List UInt8)} (same : chunks'.flatten = chunks.flatten) :
    ofChunks chunks' = ofChunks chunks := by
  have first := endOf_ofChunks chunks
  have second := endOf_ofChunks chunks'
  rw [same] at second
  exact congrArg Tail.mk (second.unique first)

end Tail

theorem Outcome.toResult_of_failure {ending : Exit} (failed : ending ≠ .exited 0) (limit : Span)
    (stderr : String) :
    (Outcome.mk (some ending) stderr).toResult limit =
      .error (.exit (ending.code?.map Int.ofNat) (Text.trim stderr)) := by
  cases ending with
  | exited code =>
      cases code with
      | zero => exact absurd rfl failed
      | succ code => rfl
  | signalled signal => rfl

namespace Tail

/-- No append leaves more than the limit, and after any chunks exactly the end of their whole is kept. What
a failed program's fault quotes is made of that end, so it is the same for any other chunks of that whole. -/
theorem keeps_end_however_chunked (chunks : List (List UInt8)) :
    (∀ t : Tail, ∀ chunk, (t.append chunk).bytes.length ≤ 2048) ∧
      (ofChunks chunks).bytes <:+ chunks.flatten ∧
      (ofChunks chunks).bytes.length = min 2048 chunks.flatten.length ∧
      ∀ ending : Exit, ending ≠ .exited 0 → ∀ (time : Span) (chunks' : List (List UInt8)),
        chunks'.flatten = chunks.flatten →
          (Outcome.mk (some ending) (ofChunks chunks').text).toResult time =
            .error (.exit (ending.code?.map Int.ofNat)
              (Text.trim (Text.decodeLossy (ofChunks chunks).bytes))) := by
  have ends := endOf_ofChunks chunks
  refine ⟨length_append_le, ends.suffix, ends.length, ?_⟩
  intro ending failed time chunks' same
  rw [ofChunks_congr same]
  exact Outcome.toResult_of_failure failed time _

/-- A stream that is three bytes too long, written in two ways. -/
theorem keeps_end_however_chunked_overlong :
    let filler := List.replicate 1024 (97 : UInt8)
    let written := [filler ++ filler, [101, 110, 100]]
    let read := [filler, filler, [101], [110, 100]]
    read.flatten = written.flatten ∧
      (ofChunks written).bytes = List.replicate 2045 97 ++ [101, 110, 100] ∧
      (Outcome.mk (some (.exited 4)) (ofChunks read).text).toResult .zero =
        .error (.exit (some 4)
          (Text.trim (Text.decodeLossy (List.replicate 2045 97 ++ [101, 110, 100])))) := by
  intro filler written read
  have same : read.flatten = written.flatten := by simp [read, written]
  obtain ⟨_, suffix, length, alike⟩ := keeps_end_however_chunked written
  have whole : written.flatten = List.replicate 3 97 ++ (List.replicate 2045 97 ++ [101, 110, 100]) := by
    calc written.flatten
      _ = filler ++ filler ++ [101, 110, 100] := by simp [written]
      _ = List.replicate (3 + 2045) 97 ++ [101, 110, 100] := by
          rw [List.replicate_append_replicate]
      _ = _ := by rw [← List.replicate_append_replicate, List.append_assoc]
  have ends : EndOf written.flatten (List.replicate 2045 97 ++ [101, 110, 100]) := by
    refine ⟨⟨_, whole.symm⟩, ?_⟩
    simp only [whole, List.length_append, List.length_replicate, List.length_cons, List.length_nil, limit]
    omega
  have bytes := EndOf.unique ⟨suffix, length⟩ ends
  have result := alike (.exited 4) (by simp) .zero read same
  rw [bytes] at result
  exact ⟨same, bytes, result⟩

end Tail

end DecodePipeline
