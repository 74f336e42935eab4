import DecodePipeline.Proofs.Decimal
import DecodePipeline.Proofs.Text.Blank
import DecodePipeline.Time.Instant
import Mathlib.Tactic.SplitIfs

/-!
Points in time are read back from their text, from the first year to the last, with leap seconds and with
as many digits of a second as there are.
-/

namespace DecodePipeline

open Decimal (Stops stops_cons padded isDigit)

variable {c : Char} {cs rest : List Char} {n width : Nat}

/-! ## Pieces of a text -/

namespace Text

theorem isBlank_of_isDigit (digit : isDigit c) : isBlank c = false := by
  obtain ⟨low, high⟩ := Decimal.isDigit_iff.mp digit
  simp only [show '0'.toNat = 48 from rfl, show '9'.toNat = 57 from rfl] at low high
  simp [isBlank]
  omega

theorem trimLeft_of_digits (all : ∀ c ∈ cs, isDigit c) (filled : cs ≠ []) :
    trimLeft (cs ++ rest) = cs ++ rest := by
  obtain ⟨c, cs, rfl⟩ := List.exists_cons_of_ne_nil filled
  exact trimLeft_cons (isBlank_of_isDigit (all c List.mem_cons_self))

end Text

namespace Instant

theorem number?_append {most : Nat} (all : ∀ c ∈ cs, isDigit c) (filled : cs ≠ [])
    (fits : cs.length ≤ most) (stops : Stops rest) :
    number? most (cs ++ rest) = some (Decimal.value cs, rest) := by
  have taken : ((cs ++ rest).take most).takeWhile isDigit = cs := by
    rw [List.take_append, List.take_of_length_le fits,
      Decimal.takeWhile_append all (stops.take _)]
  simp [number?, taken, filled]

theorem number?_padded {most : Nat} (fits : (padded width n).length ≤ most) (stops : Stops rest) :
    number? most (padded width n ++ rest) = some (n, rest) := by
  rw [number?_append (fun _ => Decimal.isDigit_of_mem_padded) (Decimal.padded_ne_nil width n) fits
    stops, Decimal.value_padded]

theorem trimLeft_padded (width n : Nat) (rest : List Char) :
    Text.trimLeft (padded width n ++ rest) = padded width n ++ rest :=
  Text.trimLeft_of_digits (fun _ => Decimal.isDigit_of_mem_padded) (Decimal.padded_ne_nil width n)

theorem field?_padded (small : n < 100) (stops : Stops rest) :
    field? (padded 2 n ++ rest) = some (n, rest) := by
  rw [field?, trimLeft_padded]
  exact number?_padded (Nat.le_of_eq (Decimal.length_padded (by omega) small)) stops

theorem separator?_cons (visible : Text.isBlank c = false) : separator? c (c :: cs) = some cs := by
  simp [separator?, Text.trimLeft_cons visible]

theorem year?_yearText (year : Int) (stops : Stops rest) :
    year? (yearText year ++ rest) = some (year, rest) := by
  unfold yearText
  split_ifs with short before
  · have fits : (padded 4 year.toNat).length ≤ 4 :=
      Nat.le_of_eq (Decimal.length_padded (by omega) (by omega))
    have read := number?_padded fits stops
    have digits : ∀ c ∈ padded 4 year.toNat, isDigit c := fun _ => Decimal.isDigit_of_mem_padded
    have filled := Decimal.padded_ne_nil 4 year.toNat
    rw [year?, trimLeft_padded]
    split
    · next tail eq => exact absurd eq (Decimal.append_ne_cons digits filled rfl rest tail)
    · next tail eq => exact absurd eq (Decimal.append_ne_cons digits filled rfl rest tail)
    · simp only [read, Option.map_some, Option.some.injEq, Prod.mk.injEq, and_true]
      omega
  · rw [List.cons_append, year?, Text.trimLeft_cons (by decide)]
    have fits : (padded 4 year.natAbs).length ≤ (padded 4 year.natAbs ++ rest).length := by simp
    have read := number?_padded fits stops
    simp only [read, Option.map_some, Option.some.injEq, Prod.mk.injEq, and_true]
    omega
  · rw [List.cons_append, year?, Text.trimLeft_cons (by decide)]
    have fits : (padded 4 year.natAbs).length ≤ (padded 4 year.natAbs ++ rest).length := by simp
    have read := number?_padded fits stops
    simp only [read, Option.map_some, Option.some.injEq, Prod.mk.injEq, and_true]
    omega

theorem fraction?_fractionText {nano : Nat} (small : nano < 1000000000) (rest : List Char) :
    fraction? (fractionText nano ++ 'Z' :: rest) = some (nano, 'Z' :: rest) := by
  have stops : Stops ('Z' :: rest) := stops_cons rfl
  have pointed {width scale : Nat} (fits : 0 < width ∧ width ≤ 9) (tens : scale = 10 ^ (9 - width))
      (whole : nano % scale = 0) (room : nano / scale < 10 ^ width) :
      fraction? ('.' :: padded width (nano / scale) ++ 'Z' :: rest) = some (nano, 'Z' :: rest) := by
    subst tens
    have length := Decimal.length_padded fits.1 room
    have digits : ∀ c ∈ padded width (nano / 10 ^ (9 - width)), isDigit c := fun _ =>
      Decimal.isDigit_of_mem_padded
    have kept := List.take_of_length_le (Nat.le_trans (Nat.le_of_eq length) fits.2)
    have exact : nano / 10 ^ (9 - width) * 10 ^ (9 - width) = nano :=
      Nat.div_mul_cancel (Nat.dvd_of_mod_eq_zero whole)
    simp [fraction?, Decimal.takeWhile_append digits stops, Decimal.padded_ne_nil, kept, length,
      Decimal.value_padded, Decimal.tenTo, exact]
  unfold fractionText
  split_ifs with none thousandth millionth
  · simp [fraction?, none]
  · exact pointed (by omega) rfl thousandth (by omega)
  · exact pointed (by omega) rfl millionth (by omega)
  · have unscaled : fraction? ('.' :: padded 9 (nano / 1) ++ 'Z' :: rest) = some (nano, 'Z' :: rest) :=
      pointed (by omega) rfl (by omega) (by omega)
    rwa [Nat.div_one] at unscaled

end Instant

theorem Clock.shift_zero {clock : Clock} (hour : clock.hour < 24) (minute : clock.minute < 60) :
    clock.shift 0 = clock := by
  obtain ⟨date, hour', minute', second, nano⟩ := clock
  dsimp only at hour minute
  have later : ¬(hour' * 60 + minute' : Int) < 0 := by omega
  have sooner : ¬1440 ≤ (hour' * 60 + minute' : Int) := by omega
  simp only [shift, Int.add_zero, later, sooner, if_false, mk.injEq, true_and, and_true]
  omega

namespace Instant

theorem date?_text {d : Day} (valid : d.Valid) (stops : Stops rest) :
    date? (yearText d.year ++ '-' :: padded 2 d.month ++ '-' :: padded 2 d.day ++ rest) =
      some (d, rest) := by
  obtain ⟨_, _, _, month, _, day⟩ := valid
  have short : d.day < 100 := by
    unfold Day.monthLength at day
    split_ifs at day <;> omega
  have minus {tail : List Char} : Stops ('-' :: tail) := stops_cons rfl
  have separator {tail : List Char} : separator? '-' ('-' :: tail) = some tail :=
    separator?_cons (by decide)
  simp only [date?, List.append_assoc, List.cons_append, year?_yearText d.year minus, separator,
    field?_padded (show d.month < 100 by omega) minus, field?_padded short stops, bind, Option.bind,
    pure]

theorem time?_text {hour minute second nano : Nat} (hours : hour < 24) (minutes : minute < 60)
    (seconds : second ≤ 60) (nanos : nano < 1000000000) (rest : List Char) :
    time? (padded 2 hour ++ ':' :: padded 2 minute ++ ':' :: padded 2 second ++
        fractionText nano ++ 'Z' :: rest) =
      some ((hour, minute, second, nano), 'Z' :: rest) := by
  have colon {tail : List Char} : Stops (':' :: tail) := stops_cons rfl
  have separator {tail : List Char} : separator? ':' (':' :: tail) = some tail :=
    separator?_cons (by decide)
  have last : Stops (fractionText nano ++ 'Z' :: rest) := by
    unfold fractionText
    split_ifs <;> exact stops_cons rfl
  simp only [time?, List.append_assoc, List.cons_append, separator,
    field?_padded (show hour < 100 by omega) colon, field?_padded (show minute < 100 by omega) colon,
    field?_padded (show second < 100 by omega) last, fraction?_fractionText nanos, bind, Option.bind,
    pure]

/-- Reading the text of a point in time gives the point back. -/
theorem read?_text (t : Instant) : read? t.text = some t := by
  obtain ⟨clock, valid⟩ := t
  obtain ⟨day, hour, minute, second, nano⟩ := id valid
  have stops : Stops ('T' :: (padded 2 clock.hour ++ ':' :: padded 2 clock.minute ++
    ':' :: padded 2 clock.second ++ fractionText clock.nano ++ ['Z'])) := stops_cons rfl
  have date := date?_text day stops
  have time := time?_text hour minute second nano []
  have zone : offset? (Text.trimLeft ['Z']) = some (0, []) := by decide
  have done : Text.trimLeft [] = [] := rfl
  simp only [List.append_assoc, List.cons_append] at date time
  simp only [read?, text, textChars, String.toList_ofList, readChars?, List.append_assoc,
    List.cons_append, date, time, zone, done, bind, Option.bind, ofClock?,
    not_true_eq_false, if_false, valid, dif_pos, Int.neg_zero, Clock.shift_zero hour minute]

end Instant

end DecodePipeline
