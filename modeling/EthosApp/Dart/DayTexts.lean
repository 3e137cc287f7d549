import EthosApp.Dart.DateText

/-!
# The three texts of a day

A day is stored as `YYYY-MM-DD`, shown in the forms as `dd/MM/yyyy`, and printed in the
report from the stored text. For the years 1 to 9999 each text determines the day, is
reproduced from it, and is turned into the others. The stored texts are ordered as the days.
-/

namespace Dart

open Gregorian Digits

/-- A text `YYYY-MM-DD` that names a day of the calendar: three blocks of digits that are
a year, a month and a day of this month. -/
def DayText (s : String) : Prop :=
  ∃ ys es ds, s.toList = ys ++ '-' :: (es ++ '-' :: ds) ∧
    Block 4 ys ∧ Block 2 es ∧ Block 2 ds ∧ (1 ≤ value es ∧ value es ≤ 12) ∧
      1 ≤ value ds ∧ value ds ≤ monthLength (value ys) (value es)

/-- A block of digits is the padded form of the number it denotes. -/
theorem Block.eq_pad {n : ℕ} {ds : List Char} (hds : Block n ds) (hn : 0 < n) :
    ds = pad n (value ds) := by
  have hne : ds ≠ [] := by
    intro hnil
    have hlength := hds.length_eq
    rw [hnil, List.length_nil] at hlength
    omega
  have hpad := pad_value (List.all_eq_true.mpr hds.isDigit) hne
  rw [hds.length_eq] at hpad
  exact hpad.symm

/-- A text names a day exactly if it is the text of that day. -/
theorem dayText_iff {s : String} : DayText s ↔
    ∃ c : CivilDate, (0 ≤ c.year ∧ c.year ≤ 9999) ∧ s = String.ofList (ymd c) := by
  constructor
  · rintro ⟨ys, es, ds, hs, hys, hes, hds, hmonth, hday⟩
    have hyear := value_lt (List.all_eq_true.mpr hys.isDigit)
    rw [hys.length_eq] at hyear
    refine ⟨⟨value ys, value es, value ds, hmonth.1, hmonth.2, hday.1, hday.2⟩, ?_, ?_⟩
    · dsimp only
      omega
    · rw [← String.toList_inj, hs, String.toList_ofList, ymd]
      dsimp only
      rw [Int.natAbs_natCast, ← hys.eq_pad (by decide), ← hes.eq_pad (by decide),
        ← hds.eq_pad (by decide)]
  · rintro ⟨c, hyear, rfl⟩
    obtain ⟨hmonth, hday⟩ := month_day_lt c
    have hcast : ((c.year.natAbs : ℕ) : ℤ) = c.year := by omega
    refine ⟨pad 4 c.year.natAbs, pad 2 c.month, pad 2 c.day, by rw [String.toList_ofList, ymd],
      block_pad (by decide) (by omega), block_pad (by decide) hmonth,
      block_pad (by decide) hday, ?_⟩
    rw [value_pad, value_pad, value_pad, hcast]
    exact ⟨⟨c.month_pos, c.month_le⟩, c.day_pos, c.day_le⟩

/-- Of two texts with a number of one width in front of a dash, the number decides, and
then what follows the dash. -/
theorem before_block {w m n : ℕ} {s t : List Char} (hw : 0 < w) (hm : m < 10 ^ w)
    (hn : n < 10 ^ w) : Before (pad w m ++ '-' :: s) (pad w n ++ '-' :: t) ↔
      m < n ∨ m = n ∧ Before s t := by
  rw [before_append (pad_length_eq hw hm hn), before_pad hw hm hn, before_cons]
  constructor
  · rintro (hlt | ⟨heq, hdash | ⟨_, hrest⟩⟩)
    · exact Or.inl hlt
    · omega
    · exact Or.inr ⟨pad_injective heq, hrest⟩
  · rintro (hlt | ⟨rfl, hrest⟩)
    · exact Or.inl hlt
    · exact Or.inr ⟨rfl, Or.inr ⟨rfl, hrest⟩⟩

/-- The texts `YYYY-MM-DD` are ordered as their days. The three blocks have fixed widths,
so that the first one in which two texts differ decides. -/
theorem before_ymd {c d : CivilDate} (hc : 0 ≤ c.year ∧ c.year ≤ 9999)
    (hd : 0 ≤ d.year ∧ d.year ≤ 9999) : Before (ymd c) (ymd d) ↔ c < d := by
  obtain ⟨hcmonth, hcday⟩ := month_day_lt c
  obtain ⟨hdmonth, hdday⟩ := month_day_lt d
  have hcyear : c.year.natAbs < 10 ^ 4 := by omega
  have hdyear : d.year.natAbs < 10 ^ 4 := by omega
  rw [ymd, ymd, before_block (by decide) hcyear hdyear, before_block (by decide) hcmonth hdmonth,
    before_pad (by decide) hcday hdday, CivilDate.lt_iff_fields]
  omega

namespace DateTime

/-- Whatever its time of day, a date is read back from its ten characters as midnight. -/
theorem parse_isoDay_eq {t : DateTime} (hyear : 0 ≤ t.date.year ∧ t.date.year ≤ 9999) :
    parse t.isoDay = some (midnight t.date) := by
  rw [← isoDay_midnight]
  exact parse_isoDay_midnight hyear

/-- Whatever its time of day, a date is read back from its ten characters and an hour as
that hour of its day. -/
theorem parse_isoDay_hour_eq {t : DateTime} (h : Hour)
    (hyear : 0 ≤ t.date.year ∧ t.date.year ≤ 9999) :
    parse (t.isoDay ++ " " ++ h.text) = some ⟨t.date, h.micros, false, h.micros_lt⟩ := by
  rw [← isoDay_midnight]
  exact parse_isoDay_midnight_hour h hyear

/-- The form text of a date is read back as midnight of its day. -/
theorem parse_splitReversedJoin_format {t : DateTime}
    (hyear : 0 ≤ t.date.year ∧ t.date.year ≤ 9999) :
    parse (splitReversedJoin '/' '-' (DateFormat.format t)) = some (midnight t.date) := by
  rw [DateFormat.splitReversedJoin_format]
  exact parse_ymd hyear.1 (inRange_midnight (c := t.date) ⟨by omega, hyear.2⟩)

/-- The stored texts of dates are ordered as the days. -/
theorem before_isoDay {s t : DateTime} (hs : 0 ≤ s.date.year ∧ s.date.year ≤ 9999)
    (ht : 0 ≤ t.date.year ∧ t.date.year ≤ 9999) :
    Before s.isoDay.toList t.isoDay.toList ↔ s.date < t.date := by
  rw [isoDay_eq hs, isoDay_eq ht, String.toList_ofList, String.toList_ofList]
  exact before_ymd hs ht

/-- A text that names a day is decoded, alone or with an hour, to a date that is encoded
as this text. -/
theorem isoDay_of_dayText {s : String} (hs : DayText s) :
    (parse s).map isoDay = some s ∧
      ∀ h : Hour, (parse (s ++ " " ++ h.text)).map isoDay = some s := by
  obtain ⟨c, hyear, rfl⟩ := dayText_iff.mp hs
  have hiso : (midnight c).isoDay = String.ofList (ymd c) := isoDay_eq (t := midnight c) hyear
  constructor
  · rw [parse_ymd hyear.1 (inRange_midnight (c := c) ⟨by omega, hyear.2⟩), Option.map_some, hiso]
  · intro h
    rw [parse_ymd_hour h hyear, Option.map_some, ← hiso]
    exact congrArg some (isoDay_congr rfl)

/-- **The texts of a day.** A date of the years 1 to 9999 is read back from its stored
text, alone or with an hour, and from its form text as the same day, and the report makes
the form text from the stored one. A stored text that names a day is reproduced by
decoding and encoding it with any hour. The lexicographic order of the stored texts is the
order of the days. -/
theorem day_texts :
    (∀ t : DateTime, 1 ≤ t.date.year ∧ t.date.year ≤ 9999 → ∀ h : Hour,
      (parse t.isoDay).map DateTime.date = some t.date ∧
      (parse (t.isoDay ++ " " ++ h.text)).map DateTime.date = some t.date ∧
      (parse (splitReversedJoin '/' '-' (DateFormat.format t))).map DateTime.date = some t.date ∧
      splitReversedJoin '-' '/' t.isoDay = DateFormat.format t) ∧
    (∀ s : String, DayText s → ∀ h : Hour,
      (parse s).map isoDay = some s ∧ (parse (s ++ " " ++ h.text)).map isoDay = some s) ∧
    ∀ s t : DateTime, 1 ≤ s.date.year ∧ s.date.year ≤ 9999 →
      1 ≤ t.date.year ∧ t.date.year ≤ 9999 →
      (Before s.isoDay.toList t.isoDay.toList ↔ s.date < t.date) ∧
      (s.isoDay = t.isoDay ↔ s.date = t.date) := by
  have hsigned : ∀ {t : DateTime}, 1 ≤ t.date.year ∧ t.date.year ≤ 9999 →
      0 ≤ t.date.year ∧ t.date.year ≤ 9999 := by
    intro t hyear
    omega
  refine ⟨?_, ?_, ?_⟩
  · intro t hyear h
    have hyear' := hsigned hyear
    rw [parse_isoDay_eq hyear', parse_isoDay_hour_eq h hyear',
      parse_splitReversedJoin_format hyear']
    exact ⟨rfl, rfl, rfl, DateFormat.splitReversedJoin_isoDay hyear'⟩
  · intro s hs h
    exact ⟨(isoDay_of_dayText hs).1, (isoDay_of_dayText hs).2 h⟩
  · intro s t hs ht
    refine ⟨before_isoDay (hsigned hs) (hsigned ht), ?_, isoDay_congr⟩
    intro heq
    have hparse := parse_isoDay_eq (hsigned hs)
    rw [heq, parse_isoDay_eq (hsigned ht)] at hparse
    exact (congrArg DateTime.date (Option.some.inj hparse)).symm

/-- Midnight of the leap day of 2024. -/
def leapDay : DateTime := midnight (CivilDate.normalize 2024 2 29)

/-- An hour of the day after. -/
def dayAfterLeapDay : DateTime :=
  ⟨CivilDate.normalize 2024 3 1, Hour.ten.micros, false, Hour.ten.micros_lt⟩

/-- The texts of the leap day of 2024. -/
theorem day_texts_leapDay :
    (parse (leapDay.isoDay ++ " " ++ Hour.zero.text)).map DateTime.date = some leapDay.date ∧
      (parse ("2024-02-29" ++ " " ++ Hour.zero.text)).map isoDay = some "2024-02-29" ∧
      (Before leapDay.isoDay.toList dayAfterLeapDay.isoDay.toList ↔
        leapDay.date < dayAfterLeapDay.date) := by
  have htext : DayText "2024-02-29" :=
    dayText_iff.mpr ⟨leapDay.date, by decide, by decide +kernel⟩
  obtain ⟨hdates, hstored, horder⟩ := day_texts
  exact ⟨(hdates leapDay (by decide) Hour.zero).2.1, (hstored _ htext Hour.zero).2,
    (horder leapDay dayAfterLeapDay (by decide) (by decide)).1⟩

end DateTime

end Dart
