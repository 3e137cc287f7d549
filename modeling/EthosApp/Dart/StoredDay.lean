import EthosApp.Dart.DateText

/-!
# The text of a day before an hour

A stored date is decoded together with an hour, from its text, a blank and `HH:MM:SS`. No
part of the accepted format but the separator of the time runs over a blank before a
digit, so that the text is the day part of the format, whatever it looks like, and the day
that is read does not depend on the hour.
-/

namespace Dart

open Digits

namespace DateTime

/-! ## Readers in front of a blank -/

/-- A block of digits is read in front of a blank. -/
theorem take_blank (n : ℕ) (cs r : List Char) :
    Digits.take n (cs ++ ' ' :: r) = (Digits.take n cs).map fun x => (x.1, x.2 ++ ' ' :: r) := by
  by_cases hn : n ≤ cs.length
  · rw [Digits.take, Digits.take, List.take_append_of_le_length hn,
      List.drop_append_of_le_length hn]
    split <;> rfl
  · rw [take_eq_none cs r rfl (by omega), take_eq_none_of_length (by omega), Option.map_none]

/-- An optional dash is read in front of a blank. -/
theorem optDash_blank (cs r : List Char) : optDash (cs ++ ' ' :: r) = optDash cs ++ ' ' :: r := by
  rcases cs with _ | ⟨c, cs⟩
  · rfl
  · by_cases hc : c = '-'
    · subst hc
      rfl
    · simp [optDash, hc]

/-- An optional colon is read in front of a blank. -/
theorem optColon_blank (cs r : List Char) :
    optColon (cs ++ ' ' :: r) = optColon cs ++ ' ' :: r := by
  rcases cs with _ | ⟨c, cs⟩
  · rfl
  · by_cases hc : c = ':'
    · subst hc
      rfl
    · simp [optColon, hc]

/-- An optional sign is read in front of a blank. -/
theorem optSign_blank (cs r : List Char) :
    optSign (cs ++ ' ' :: r) = ((optSign cs).1, (optSign cs).2 ++ ' ' :: r) := by
  rcases cs with _ | ⟨c, cs⟩
  · rfl
  · by_cases hplus : c = '+'
    · subst hplus
      rfl
    · by_cases hminus : c = '-'
      · subst hminus
        rfl
      · simp [optSign, hplus, hminus]

/-- The day part of the format is read in front of a blank. -/
theorem datePart_blank (n : ℕ) (cs r : List Char) :
    datePart n (cs ++ ' ' :: r) = (datePart n cs).map fun x => (x.1, x.2 ++ ' ' :: r) := by
  simp only [datePart, optSign_blank, take_blank, Option.bind_eq_bind, Option.pure_def]
  cases Digits.take n (optSign cs).2 with
  | none => rfl
  | some y =>
    simp only [Option.map_some, Option.bind_some, optDash_blank, take_blank]
    cases Digits.take 2 (optDash y.2) with
    | none => rfl
    | some m =>
      simp only [Option.map_some, Option.bind_some, optDash_blank, take_blank]
      cases Digits.take 2 (optDash m.2) <;> rfl

/-- Fractional seconds are read in front of a blank. -/
theorem fraction_blank (cs r : List Char) :
    fraction (cs ++ ' ' :: r) = (fraction cs).map fun x => (x.1, x.2 ++ ' ' :: r) := by
  have hblank : (' ' :: r).takeWhile Char.isDigit = [] ∧
      (' ' :: r).dropWhile Char.isDigit = ' ' :: r := ⟨rfl, rfl⟩
  have htake : ∀ l : List Char, (l ++ ' ' :: r).takeWhile Char.isDigit = l.takeWhile Char.isDigit ∧
      (l ++ ' ' :: r).dropWhile Char.isDigit = l.dropWhile Char.isDigit ++ ' ' :: r := by
    intro l
    induction l with
    | nil => exact hblank
    | cons c l ih => cases hc : c.isDigit <;> simp [hc, ih]
  rcases cs with _ | ⟨c, cs⟩
  · rfl
  · by_cases hc : c = '.' ∨ c = ','
    · simp only [List.cons_append, fraction, if_pos hc, htake]
      split <;> rfl
    · simp only [List.cons_append, fraction, if_neg hc]
      rfl

/-! ## An hour is no zone -/

/-- The text of an hour begins with a digit and is longer than a zone's letter. -/
theorem hour_text (h : Hour) : ∃ c d ds, h.text.toList = c :: d :: ds ∧ c.isDigit = true := by
  have hlength : (pad 2 h.hour).length = 2 := pad_length (by decide) (by have := h.hour_lt; omega)
  obtain ⟨c, d, hpad⟩ := List.length_eq_two.mp hlength
  refine ⟨c, d, _, by simp [Hour.text, hpad]; rfl, ?_⟩
  exact isDigit_of_mem_pad (w := 2) (n := h.hour) (by simp [hpad])

/-- A zone offset does not run over a blank. -/
theorem zoneOffset_blank (cs r : List Char) : zoneOffset (cs ++ ' ' :: r) = none := by
  rw [zoneOffset, take_blank]
  cases Digits.take 2 cs with
  | none => rfl
  | some x =>
    simp only [Option.map_some, Option.bind_eq_bind, Option.bind_some, optColon_blank, take_blank]
    cases Digits.take 2 (optColon x.2) <;> simp

/-- Without its optional blank, such a text still ends in a blank and the hour, or it is
the hour. -/
theorem optBlank_hour (cs r : List Char) :
    optBlank (cs ++ ' ' :: r) = r ∨ ∃ l, optBlank (cs ++ ' ' :: r) = l ++ ' ' :: r := by
  rcases cs with _ | ⟨c, cs⟩
  · exact Or.inl rfl
  · by_cases hc : c = ' '
    · subst hc
      exact Or.inr ⟨cs, rfl⟩
    · exact Or.inr ⟨c :: cs, by simp [optBlank, hc]⟩

/-- What follows the sign of a zone in front of a blank still ends in the blank. -/
theorem tail_of_signed {l r rest : List Char} {c : Char} (hc : c ≠ ' ')
    (h : l ++ ' ' :: r = c :: rest) : ∃ l', rest = l' ++ ' ' :: r := by
  rcases l with _ | ⟨a, l⟩
  · injection h with hblank _
    exact absurd hblank.symm hc
  · injection h with _ hrest
    exact ⟨l, hrest.symm⟩

/-- A zone does not run over a blank before an hour. -/
theorem zonePart_hour (cs : List Char) (h : Hour) :
    zonePart (cs ++ ' ' :: h.text.toList) = none := by
  obtain ⟨c, d, ds, htext, hc⟩ := hour_text h
  have hplus : c ≠ '+' := by rintro rfl; cases hc
  have hminus : c ≠ '-' := by rintro rfl; cases hc
  rw [zonePart, if_neg (by simp)]
  rcases optBlank_hour cs h.text.toList with hblank | ⟨l, hblank⟩
  · rw [hblank, htext]
    simp [hplus, hminus]
  · rw [hblank]
    split
    · rename_i hz
      have hlength := congrArg List.length hz
      simp [htext] at hlength
      omega
    · rename_i hz
      have hlength := congrArg List.length hz
      simp [htext] at hlength
      omega
    · rename_i rest hz
      obtain ⟨l', rfl⟩ := tail_of_signed (by decide) hz
      rw [zoneOffset_blank, Option.map_none]
    · rename_i rest hz
      obtain ⟨l', rfl⟩ := tail_of_signed (by decide) hz
      rw [zoneOffset_blank, Option.map_none]
    · rfl

/-- A time of day does not run over a blank before an hour. -/
theorem clockPart_hour (cs : List Char) (h : Hour) :
    clockPart (cs ++ ' ' :: h.text.toList) = none := by
  simp only [clockPart, take_blank, Option.bind_eq_bind]
  cases Digits.take 2 cs with
  | none => rfl
  | some x =>
    simp only [Option.map_some, Option.bind_some, optColon_blank, take_blank]
    cases Digits.take 2 (optColon x.2) with
    | none => simp [zonePart_hour]
    | some y =>
      simp only [Option.map_some, optColon_blank, take_blank]
      cases Digits.take 2 (optColon y.2) with
      | none => simp [zonePart_hour]
      | some z =>
        simp only [Option.map_some, fraction_blank]
        cases fraction z.2 <;> simp [zonePart_hour]

/-! ## The day of a stored text -/

/-- The day part that is the whole text, for a number of year digits. -/
def wholeDay (cs : List Char) (n : ℕ) : Option (ℤ × ℕ × ℕ) :=
  (datePart n cs).bind fun x => if x.2 = [] then some x.1 else none

/-- Before an hour, only a whole day matches the format. -/
theorem matchFormat_hour (n : ℕ) (cs : List Char) (h : Hour) :
    matchFormat n (cs ++ ' ' :: h.text.toList) =
      (wholeDay cs n).map fun d => (d, ⟨h.hour, h.minute, h.second, 0, 0, false⟩) := by
  simp only [matchFormat, wholeDay, datePart_blank, Option.bind_eq_bind]
  cases datePart n cs with
  | none => rfl
  | some x =>
    obtain ⟨d, rest⟩ := x
    simp only [Option.map_some, Option.bind_some]
    rcases rest with _ | ⟨c, rest⟩
    · simp [timePart_hour]
    · have hnone : timePart (c :: (rest ++ ' ' :: h.text.toList)) = none := by
        rw [timePart]
        split
        · exact clockPart_hour rest h
        · rfl
      simp [hnone]

/-- **Decoding a stored day with an hour.** The fields of the day do not depend on the
hour. -/
theorem parse_hour (s : String) (h : Hour) : parse (s ++ " " ++ h.text) =
    ([6, 5, 4].findSome? (wholeDay s.toList)).bind fun d =>
      ofFields d.1 d.2.1 d.2.2 h.hour h.minute h.second 0 false := by
  have htext : (s ++ " " ++ h.text).toList = s.toList ++ ' ' :: h.text.toList := by simp
  have hfind : ∀ ns : List ℕ, ns.findSome? (fun n => matchFormat n (s ++ " " ++ h.text).toList) =
      (ns.findSome? (wholeDay s.toList)).map
        fun d => (d, ⟨h.hour, h.minute, h.second, 0, 0, false⟩) := by
    intro ns
    induction ns with
    | nil => rfl
    | cons n ns ih =>
      rw [List.findSome?_cons, List.findSome?_cons, htext, matchFormat_hour]
      rw [htext] at ih
      cases wholeDay s.toList n with
      | none => exact ih
      | some d => rfl
  rw [parse, hfind]
  cases [6, 5, 4].findSome? (wholeDay s.toList) <;> simp

/-- A text that is decoded with one hour to a day of a year with at most four digits is
decoded with every hour, to that hour of the day. -/
theorem parse_any_hour {s : String} {h : Hour} {t : DateTime}
    (hparse : parse (s ++ " " ++ h.text) = some t)
    (hyear : 0 ≤ t.date.year ∧ t.date.year ≤ 9999) (h' : Hour) :
    parse (s ++ " " ++ h'.text) = some ⟨t.date, h'.micros, false, h'.micros_lt⟩ := by
  rw [parse_hour, Option.bind_eq_some_iff] at hparse
  obtain ⟨⟨y, m, d⟩, hday, hfields⟩ := hparse
  have hclock : ∀ h : Hour, (((h.hour : ℤ) * 60 + h.minute) * 60 + h.second) * 1000000 + 0 =
      (h.micros : ℕ) := by
    intro h
    simp [Hour.micros]
  have hdate : t.date = Gregorian.CivilDate.normalize y m d := by
    simp only [ofFields, Option.ite_none_right_eq_some, Option.some.injEq] at hfields
    obtain ⟨_, rfl⟩ := hfields
    have hlt := h.micros_lt
    rw [hclock]
    simp only [ofWall]
    rw [Int.add_ediv_of_dvd_left (by simp), Int.mul_ediv_cancel _ (by decide),
      Int.ediv_eq_zero_of_lt (by omega) (by omega), add_zero]
    simp
  rw [parse_hour, hday, Option.bind_some]
  have hcivil := ofFields_civil (c := t.date) false (hclock h') h'.micros_lt
    (inRange_of_year (by omega) h'.micros_lt)
  rw [← hcivil, ofFields, ofFields, hdate]
  simp

end DateTime

end Dart
