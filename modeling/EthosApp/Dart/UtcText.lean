import EthosApp.Dart.DateText
import EthosApp.Dart.Zone

/-!
# Local midnights in UTC

A local midnight of the years 1 to 9999 falls into the years 0 to 9999 in UTC, on a
whole second, so that its ISO 8601 text has a fixed width. Two midnights of one zone are
ordered as their days, since its offsets differ by less than a day.
-/

namespace Dart

open Gregorian Digits

/-- The instant of a local midnight. -/
theorem DateTime.instant_midnight (z : Zone) (c : CivilDate) :
    (DateTime.midnight c).instant z =
      c.toDays * microsPerDay - z.offset (c.toDays * microsPerDay) * 1000000 := by
  simp [DateTime.instant, DateTime.midnight, DateTime.wall]

/-- Local midnights of one zone are ordered as their days. -/
theorem DateTime.instant_midnight_lt {z : Zone} {c d : CivilDate} :
    (DateTime.midnight c).instant z < (DateTime.midnight d).instant z ↔ c < d := by
  rw [DateTime.instant_midnight, DateTime.instant_midnight, CivilDate.lt_iff_toDays_lt]
  have hcd := z.offset_spread (c.toDays * microsPerDay) (d.toDays * microsPerDay)
  have hdc := z.offset_spread (d.toDays * microsPerDay) (c.toDays * microsPerDay)
  unfold microsPerDay at *
  rcases lt_trichotomy c.toDays d.toDays with h | h | h
  · omega
  · rw [h]
    simp
  · omega

/-- Local midnights of one zone fall on one instant only if they are of one day. -/
theorem DateTime.instant_midnight_inj {z : Zone} {c d : CivilDate} :
    (DateTime.midnight c).instant z = (DateTime.midnight d).instant z ↔ c = d := by
  constructor
  · intro h
    rcases lt_trichotomy c d with hlt | heq | hlt
    · have := DateTime.instant_midnight_lt (z := z) |>.mpr hlt
      omega
    · exact heq
    · have := DateTime.instant_midnight_lt (z := z) |>.mpr hlt
      omega
  · rintro rfl
    rfl

/-- A UTC date on a whole second of a year with four digits. -/
structure DateTime.WholeUtc (t : DateTime) : Prop where
  /-- The date is in UTC. -/
  isUtc : t.isUtc = true
  /-- It has no fraction of a second. -/
  whole : t.micros % 1000000 = 0
  /-- Its year has no sign and at most four digits. -/
  year : 0 ≤ t.date.year ∧ t.date.year ≤ 9999

/-- A local midnight of the years 1 to 9999 in UTC. -/
theorem DateTime.wholeUtc_midnight (z : Zone) {c : CivilDate}
    (hyear : 1 ≤ c.year ∧ c.year ≤ 9999) : ((DateTime.midnight c).toUtc z).WholeUtc := by
  have hinstant := DateTime.instant_midnight z c
  have hoffset := z.offset_lt (c.toDays * microsPerDay)
  have hutc : (DateTime.midnight c).toUtc z =
      DateTime.ofWall ((DateTime.midnight c).instant z) true := rfl
  obtain ⟨hlow, hhigh⟩ := c.toDays_bounds
  have hfirst := daysBeforeYear_strictMono.monotone hyear.1
  have hlast := daysBeforeYear_strictMono.monotone (show c.year + 1 ≤ 10000 by omega)
  rw [hutc, hinstant]
  generalize z.offset (c.toDays * microsPerDay) = k at *
  have hdays : (DateTime.ofWall (c.toDays * microsPerDay - k * 1000000) true).date.toDays =
      (c.toDays * microsPerDay - k * 1000000) / microsPerDay := CivilDate.toDays_ofDays _
  refine ⟨rfl, ?_, ?_⟩
  · simp only [DateTime.ofWall]
    unfold microsPerDay
    omega
  · have hzero := CivilDate.year_lt_iff
      (DateTime.ofWall (c.toDays * microsPerDay - k * 1000000) true).date 0
    have hten := CivilDate.year_lt_iff
      (DateTime.ofWall (c.toDays * microsPerDay - k * 1000000) true).date 10000
    rw [hdays] at hzero hten
    unfold daysBeforeYear microsPerDay at *
    omega

/-- The text of a whole second in UTC. -/
theorem DateTime.WholeUtc.toList {t : DateTime} (h : t.WholeUtc) :
    t.toIso8601String.toList = ymd t.date ++ 'T' :: (pad 2 t.hour ++ ':' :: (pad 2 t.minute ++
      ':' :: (pad 2 t.second ++ ['.', '0', '0', '0', 'Z']))) := by
  have hyear : -9999 ≤ t.date.year ∧ t.date.year ≤ 9999 ∧ ¬ t.date.year < 0 := by
    have := h.year
    omega
  have hmilli : t.millisecond = 0 := by
    have := h.whole
    unfold millisecond
    omega
  have hmicro : t.microsecond = 0 := by
    have := h.whole
    unfold microsecond
    omega
  have hpad : pad 3 0 = ['0', '0', '0'] := by decide
  simp [toIso8601String, isoYear, hyear, ymd, isoTime, hmilli, hmicro, hpad, h.isUtc]

/-- The clock of a date fits two digits each. -/
theorem DateTime.clock_lt (t : DateTime) :
    t.hour < 10 ^ 2 ∧ t.minute < 10 ^ 2 ∧ t.second < 10 ^ 2 := by
  have hlt := t.micros_lt
  unfold microsPerDay at hlt
  unfold hour minute second
  omega

/-- The text of a whole second in UTC has 24 characters. -/
theorem DateTime.WholeUtc.length {t : DateTime} (h : t.WholeUtc) :
    t.toIso8601String.toList.length = 24 := by
  obtain ⟨hhour, hminute, hsecond⟩ := t.clock_lt
  have hyear := h.year
  simp [h.toList, ymd_length (show t.date.year.natAbs < 10 ^ 4 by omega),
    pad_length (by decide) hhour, pad_length (by decide) hminute, pad_length (by decide) hsecond]

/-- The text of a whole second in UTC is not empty. -/
theorem DateTime.WholeUtc.text_ne_empty {t : DateTime} (h : t.WholeUtc) :
    t.toIso8601String ≠ "" := by
  intro hempty
  have hlength := h.length
  rw [hempty] at hlength
  cases hlength

/-- The text `YYYY-MM-DD` determines the day. -/
theorem ymd_injective {c d : CivilDate} (hc : 0 ≤ c.year ∧ c.year ≤ 9999)
    (hd : 0 ≤ d.year ∧ d.year ≤ 9999) (h : ymd c = ymd d) : c = d := by
  obtain ⟨hcmonth, hcday⟩ := month_day_lt c
  obtain ⟨hdmonth, hdday⟩ := month_day_lt d
  unfold ymd at h
  obtain ⟨hyear, h⟩ := List.append_inj h (pad_length_eq (by decide) (by omega) (by omega))
  rw [List.cons_inj_right] at h
  obtain ⟨hmonth, h⟩ := List.append_inj h (pad_length_eq (by decide) hcmonth hdmonth)
  rw [List.cons_inj_right] at h
  have hyear' := pad_injective hyear
  ext
  · omega
  · exact pad_injective hmonth
  · exact pad_injective h

/-- Whole seconds in UTC are determined by their texts. -/
theorem DateTime.WholeUtc.injective {s t : DateTime} (hs : s.WholeUtc) (ht : t.WholeUtc)
    (h : s.toIso8601String = t.toIso8601String) : s = t := by
  obtain ⟨hshour, hsminute, hssecond⟩ := s.clock_lt
  obtain ⟨hthour, htminute, htsecond⟩ := t.clock_lt
  have hsyear := hs.year
  have htyear := ht.year
  rw [← String.toList_inj, hs.toList, ht.toList] at h
  obtain ⟨hdate, h⟩ := List.append_inj h
    (by rw [ymd_length (by omega), ymd_length (by omega)])
  rw [List.cons_inj_right] at h
  obtain ⟨hhour, h⟩ := List.append_inj h (pad_length_eq (by decide) hshour hthour)
  rw [List.cons_inj_right] at h
  obtain ⟨hminute, h⟩ := List.append_inj h (pad_length_eq (by decide) hsminute htminute)
  rw [List.cons_inj_right] at h
  obtain ⟨hsecond, _⟩ := List.append_inj h (pad_length_eq (by decide) hssecond htsecond)
  have hhour' := pad_injective hhour
  have hminute' := pad_injective hminute
  have hsecond' := pad_injective hsecond
  have hswhole := hs.whole
  have htwhole := ht.whole
  ext1
  · exact ymd_injective hs.year ht.year hdate
  · unfold hour at hhour'
    unfold minute at hminute'
    unfold second at hsecond'
    omega
  · rw [hs.isUtc, ht.isUtc]

end Dart
