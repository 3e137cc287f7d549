import EthosApp.Dart.DateFormat
import EthosApp.Dart.DayPart

/-!
# The day behind a date text

`ymd` is the text `YYYY-MM-DD` that every other representation of a day passes
through. The lemmas of this file show which day `DateTime.parse` reads from it, from
the form text, and from the first ten characters of an ISO 8601 text, whose width only
fits the years 0 to 9999.
-/

namespace Dart

open Gregorian Digits

/-- The text `YYYY-MM-DD` of a day, without the sign of its year. -/
def ymd (c : CivilDate) : List Char :=
  pad 4 c.year.natAbs ++ '-' :: (pad 2 c.month ++ '-' :: pad 2 c.day)

/-- The months and the days of a civil date have two digits. -/
theorem month_day_lt (c : CivilDate) : c.month < 10 ^ 2 ∧ c.day < 10 ^ 2 := by
  have hmonth := c.month_le
  have hday := c.day_le
  have hlength := (monthLength_bounds c.year c.month).2
  omega

namespace DateTime

/-! ## Wall clocks and components -/

/-- Every `DateTime` is recovered from its wall clock. -/
@[simp] theorem ofWall_wall (t : DateTime) : ofWall t.wall t.isUtc = t := by
  have hlt := t.micros_lt
  have hday : t.wall / microsPerDay = t.date.toDays := by
    unfold wall microsPerDay at *
    omega
  have htime : (t.wall % microsPerDay).toNat = t.micros := by
    unfold wall microsPerDay at *
    omega
  ext1
  · rw [ofWall, hday, CivilDate.ofDays_toDays]
  · exact htime
  · rfl

/-- Every wall clock is shown by the `DateTime` built from it. -/
@[simp] theorem wall_ofWall (w : ℤ) (utc : Bool) : (ofWall w utc).wall = w := by
  simp only [wall, ofWall, CivilDate.toDays_ofDays]
  unfold microsPerDay
  omega

/-- Days of moderate years can be represented, at any time of day. -/
theorem inRange_of_toDays {n k : ℤ} (hlow : -100000000 + 719528 ≤ n) (hhigh : n < 100719528)
    (hk : 0 ≤ k ∧ k < microsPerDay) : InRange (n * microsPerDay + k) := by
  unfold InRange microsPerDay at *
  omega

/-- Days whose year has at most four digits can be represented. -/
theorem inRange_of_year {c : CivilDate} {k : ℕ} (hyear : -9999 ≤ c.year ∧ c.year ≤ 9999)
    (hk : k < microsPerDay) : InRange (c.toDays * microsPerDay + k) := by
  have hlow : ¬ c.year < -9999 := by omega
  have hhigh : c.year < 10000 := by omega
  rw [CivilDate.year_lt_iff] at hlow hhigh
  unfold daysBeforeYear at hlow hhigh
  exact inRange_of_toDays (by omega) (by omega) ⟨by omega, by omega⟩

/-- Midnights whose year has at most four digits can be represented. -/
theorem inRange_midnight {c : CivilDate} (hyear : -9999 ≤ c.year ∧ c.year ≤ 9999) :
    InRange (c.toDays * microsPerDay) := by
  simpa using inRange_of_year (k := 0) hyear (by decide)

/-- The constructor applied to an existing day and time returns them. -/
theorem ofFields_civil {c : CivilDate} {hour minute second micro : ℤ} {k : ℕ} (utc : Bool)
    (hclock : ((hour * 60 + minute) * 60 + second) * 1000000 + micro = k)
    (hk : k < microsPerDay) (hrange : InRange (c.toDays * microsPerDay + k)) :
    ofFields c.year c.month c.day hour minute second micro utc = some ⟨c, k, utc, hk⟩ := by
  have hwall := ofWall_wall ⟨c, k, utc, hk⟩
  simp only [wall] at hwall
  simp only [ofFields, CivilDate.normalize_self, hclock, if_pos hrange, hwall]

/-- A representable wall clock shows a year of at most six digits. -/
theorem natAbs_year_ofWall {w : ℤ} (utc : Bool) (hrange : InRange w) :
    (ofWall w utc).date.year.natAbs < 10 ^ 6 := by
  have hdays : (ofWall w utc).date.toDays = w / microsPerDay := CivilDate.toDays_ofDays _
  have hhigh := CivilDate.year_lt_iff (ofWall w utc).date 1000000
  have hlow := CivilDate.year_lt_iff (ofWall w utc).date (-999999)
  rw [hdays] at hhigh hlow
  unfold InRange at hrange
  unfold daysBeforeYear microsPerDay at *
  omega

/-- A parsed date can be represented. -/
theorem inRange_of_parse {s : String} {t : DateTime} (hparse : parse s = some t) :
    InRange t.wall := by
  simp only [parse, Option.bind_eq_bind, Option.bind_eq_some_iff] at hparse
  obtain ⟨⟨⟨y, m, d⟩, p⟩, _, hfields⟩ := hparse
  simp only [ofFields, Option.ite_none_right_eq_some, Option.some.injEq] at hfields
  obtain ⟨hrange, rfl⟩ := hfields
  rwa [wall_ofWall]

/-- Whatever text a `DateTime` is parsed from, its year has at most six digits. -/
theorem natAbs_year_of_parse {s : String} {t : DateTime} (hparse : parse s = some t) :
    t.date.year.natAbs < 10 ^ 6 := by
  have hyear := natAbs_year_ofWall t.isUtc (inRange_of_parse hparse)
  rwa [ofWall_wall] at hyear

/-- A parsed date of a year from zero on can be represented at midnight, too. -/
theorem inRange_midnight_of_parse {s : String} {t : DateTime} (hparse : parse s = some t)
    (hyear : 0 ≤ t.date.year) : InRange (t.date.toDays * microsPerDay) := by
  have hrange := inRange_of_parse hparse
  have hlow : ¬ t.date.year < 0 := by omega
  rw [CivilDate.year_lt_iff] at hlow
  unfold daysBeforeYear at hlow
  unfold InRange wall microsPerDay at *
  omega

/-! ## Matching `YYYY-MM-DD` -/

/-- Among the widths tried by the format, the one written is the first that matches. -/
theorem findSome_ymd {c : CivilDate} (rest : List Char) {t : TimeParts}
    (hyear : 0 ≤ c.year ∧ c.year < 1000000) (hrest : timePart rest = some t) :
    [6, 5, 4].findSome? (fun n => matchFormat n (ymd c ++ rest)) =
      some ((c.year, c.month, c.day), t) := by
  obtain ⟨hmonth, hday⟩ := month_day_lt c
  obtain ⟨hlow, hhigh⟩ := length_pad_bounds (w := 4) (n := c.year.natAbs) (k := 6)
    (by decide) (by omega)
  have hfind := findSome_blocks (Or.inl ⟨rfl, rfl⟩) (block_pad_length 4 c.year.natAbs)
    ⟨hlow, hhigh⟩ (block_pad (by decide) hmonth) (block_pad (by decide) hday) hrest
  have htext : ymd c ++ rest = [] ++ (pad 4 c.year.natAbs ++
      '-' :: (pad 2 c.month ++ '-' :: (pad 2 c.day ++ rest))) := by
    simp [ymd]
  have hcast : 1 * (c.year.natAbs : ℤ) = c.year := by omega
  rw [htext, hfind, value_pad, value_pad, value_pad, hcast]

/-- Representable days of positive years have years of at most six digits. -/
theorem year_lt_of_inRange {c : CivilDate} {k : ℕ}
    (hrange : InRange (c.toDays * microsPerDay + k)) : c.year < 1000000 := by
  rw [CivilDate.year_lt_iff]
  unfold InRange microsPerDay at hrange
  unfold daysBeforeYear
  omega

/-- `DateTime.parse` of `YYYY-MM-DD` is midnight of the day. -/
theorem parse_ymd {c : CivilDate} (hyear : 0 ≤ c.year)
    (hrange : InRange (c.toDays * microsPerDay)) :
    parse (String.ofList (ymd c)) = some (midnight c) := by
  have hrange' : InRange (c.toDays * microsPerDay + (0 : ℕ)) := by simpa using hrange
  have hfind := findSome_ymd [] ⟨hyear, year_lt_of_inRange hrange'⟩ rfl
  rw [List.append_nil] at hfind
  simp only [parse, String.toList_ofList, hfind, Option.bind_eq_bind, Option.bind_some]
  refine ofFields_civil (k := 0) false ?_ (by decide) hrange'
  simp

/-- The time part of a valid hour. -/
theorem timePart_hour (h : Hour) :
    timePart (' ' :: h.text.toList) = some ⟨h.hour, h.minute, h.second, 0, 0, false⟩ := by
  have hhour : h.hour < 10 ^ 2 := by have := h.hour_lt; omega
  have hminute : h.minute < 10 ^ 2 := by have := h.minute_lt; omega
  have hsecond : h.second < 10 ^ 2 := by have := h.second_lt; omega
  have hlast := take_pad [] (by decide) hsecond
  rw [List.append_nil] at hlast
  simp [timePart, clockPart, Hour.text, optColon, take_pad _ _ hhour, take_pad _ _ hminute,
    hlast, fraction, zonePart]

/-- `DateTime.parse` of `YYYY-MM-DD HH:MM:SS` is that hour of the day. -/
theorem parse_ymd_hour {c : CivilDate} (h : Hour) (hyear : 0 ≤ c.year ∧ c.year ≤ 9999) :
    parse (String.ofList (ymd c) ++ " " ++ h.text) = some ⟨c, h.micros, false, h.micros_lt⟩ := by
  have hfind := findSome_ymd (c := c) _ ⟨hyear.1, by omega⟩ (timePart_hour h)
  have htext : (String.ofList (ymd c) ++ " " ++ h.text).toList =
      ymd c ++ ' ' :: h.text.toList := by simp
  simp only [parse, htext, hfind, Option.bind_eq_bind, Option.bind_some]
  apply ofFields_civil false
  · unfold Hour.micros
    omega
  · exact inRange_of_year ⟨by omega, hyear.2⟩ h.micros_lt

/-! ## The first ten characters of an ISO 8601 text -/

/-- The text `YYYY-MM-DD` of a four-digit year has ten characters. -/
theorem ymd_length {c : CivilDate} (hyear : c.year.natAbs < 10 ^ 4) : (ymd c).length = 10 := by
  obtain ⟨hmonth, hday⟩ := month_day_lt c
  simp [ymd, pad_length (by decide) hyear, pad_length (by decide) hmonth,
    pad_length (by decide) hday]

/-- The ISO 8601 text of a year between 0 and 9999 starts with `YYYY-MM-DD`. -/
theorem isoDay_eq {t : DateTime} (hyear : 0 ≤ t.date.year ∧ t.date.year ≤ 9999) :
    t.isoDay = String.ofList (ymd t.date) := by
  have hiso : t.toIso8601String.toList = ymd t.date ++ 'T' :: t.isoTime := by
    have h1 : -9999 ≤ t.date.year ∧ t.date.year ≤ 9999 := by omega
    have h2 : ¬ t.date.year < 0 := by omega
    simp [toIso8601String, isoYear, h1, h2, ymd]
  have hlength : (ymd t.date).length = 10 := ymd_length (by omega)
  rw [isoDay, substring, hiso, ← hlength, List.take_left, List.drop_zero]

/-- A midnight of a four-digit year is read back from its ten characters. -/
theorem parse_isoDay_midnight {c : CivilDate} (hyear : 0 ≤ c.year ∧ c.year ≤ 9999) :
    parse (midnight c).isoDay = some (midnight c) := by
  rw [isoDay_eq (t := midnight c) hyear]
  exact parse_ymd hyear.1 (inRange_midnight (c := c) ⟨by omega, hyear.2⟩)

/-- The ten characters of a midnight of a four-digit year are read with a valid hour. -/
theorem parse_isoDay_midnight_hour {c : CivilDate} (h : Hour)
    (hyear : 0 ≤ c.year ∧ c.year ≤ 9999) :
    parse ((midnight c).isoDay ++ " " ++ h.text) = some ⟨c, h.micros, false, h.micros_lt⟩ := by
  rw [isoDay_eq (t := midnight c) hyear]
  exact parse_ymd_hour h hyear

/-- The first ten characters of an ISO 8601 text do not reach its time. -/
theorem isoDay_toList (t : DateTime) :
    t.isoDay.toList = (isoYear t.date.year ++ '-' :: (pad 2 t.date.month ++
      '-' :: pad 2 t.date.day)).take 10 := by
  have hyear : 4 ≤ (isoYear t.date.year).length := by
    have h4 := le_length_pad 4 t.date.year.natAbs
    have h6 := le_length_pad 6 t.date.year.natAbs
    unfold isoYear
    grind
  have hmonth := le_length_pad 2 t.date.month
  have hday := le_length_pad 2 t.date.day
  have htext : t.toIso8601String.toList = (isoYear t.date.year ++ '-' :: (pad 2 t.date.month ++
      '-' :: pad 2 t.date.day)) ++ 'T' :: t.isoTime := by
    simp [toIso8601String]
  rw [isoDay, substring, String.toList_ofList, htext, List.drop_zero,
    List.take_append_of_le_length]
  simp only [List.length_append, List.length_cons]
  omega

/-- The day kept of a date does not depend on the time of day. -/
theorem isoDay_congr {s t : DateTime} (hdate : s.date = t.date) : s.isoDay = t.isoDay := by
  rw [← String.toList_inj, isoDay_toList, isoDay_toList, hdate]

/-- The ten characters of a date are those of its midnight. -/
@[simp] theorem isoDay_midnight (t : DateTime) : (midnight t.date).isoDay = t.isoDay :=
  isoDay_congr rfl

/-! ## Years that the ten characters do not fit -/

/-- What follows the day in a text to decode: nothing, or a blank and a valid hour. -/
def DayEnd (rest : List Char) : Prop := rest = [] ∨ ∃ h : Hour, rest = ' ' :: h.text.toList

/-- The end of a day text contributes a time within the day. -/
theorem DayEnd.timePart {rest : List Char} (hend : DayEnd rest) :
    ∃ t : TimeParts, timePart rest = some t ∧ t.offset = 0 ∧
      ((t.hour * 60 + t.minute) * 60 + t.second) * 1000000 + t.micro < microsPerDay := by
  rcases hend with rfl | ⟨h, rfl⟩
  · exact ⟨_, rfl, rfl, by decide⟩
  · exact ⟨_, timePart_hour h, rfl, by simpa [Hour.micros] using h.micros_lt⟩

/-- The end of a day text does not begin with a digit or a dash. -/
theorem DayEnd.take_none {rest : List Char} (hend : DayEnd rest) :
    Digits.take 2 (optDash rest) = none ∧ ∀ d, Digits.take 2 (d :: rest) = none := by
  rcases hend with rfl | ⟨h, rfl⟩
  · exact ⟨rfl, fun d => take_eq_none_of_length (by simp)⟩
  · refine ⟨take_eq_none [] _ rfl (by decide), fun d => ?_⟩
    simp [Digits.take]

/-- Small components always denote a representable time, on the day that they are carried
over to. -/
theorem ofFields_date {y : ℤ} {m d k : ℕ} {hour minute second micro : ℤ} (utc : Bool)
    (hy : -9999 ≤ y ∧ y ≤ 9999) (hm : m < 100) (hd : d < 100)
    (hclock : ((hour * 60 + minute) * 60 + second) * 1000000 + micro = k) (hk : k < microsPerDay) :
    (ofFields y m d hour minute second micro utc).map date = some (.normalize y m d) := by
  have hyear := daysBeforeYear_bounds (y + ((m : ℤ) - 1) / 12)
  have hmonth := daysBeforeMonth_mono (y + ((m : ℤ) - 1) / 12)
    (show (((m : ℤ) - 1) % 12).toNat + 1 ≤ 13 by omega)
  have hlength : daysBeforeMonth (y + ((m : ℤ) - 1) / 12) 13 ≤ 366 := by
    have h13 := daysBeforeMonth_thirteen (y + ((m : ℤ) - 1) / 12)
    rw [daysBeforeYear_succ] at h13
    split at h13 <;> omega
  have hrange : InRange ((CivilDate.normalize y m d).toDays * microsPerDay + k) := by
    rw [CivilDate.normalize, CivilDate.toDays_ofDays]
    exact inRange_of_toDays (by omega) (by omega) ⟨by omega, by omega⟩
  have hwall := ofWall_wall ⟨CivilDate.normalize y m d, k, utc, hk⟩
  simp only [wall] at hwall
  simp [ofFields, hclock, if_pos hrange, hwall]

/-- The digits of a six-digit number, and the blocks of four and of two they split into. -/
theorem pad_six {n : ℕ} (hn : n < 10 ^ 6) : ∃ a b c d e f : Char,
    pad 6 n = [a, b, c, d, e, f] ∧ e.isDigit ∧ f.isDigit ∧ [a, b, c, d].all Char.isDigit := by
  have hlength := pad_length (w := 6) (by decide) hn
  have hall : (pad 6 n).all Char.isDigit :=
    List.all_eq_true.mpr fun c hc => isDigit_of_mem_pad hc
  match hpad : pad 6 n, hlength with
  | [a, b, c, d, e, f], _ =>
    simp only [hpad, List.all_cons, List.all_nil, Bool.and_true, Bool.and_eq_true] at hall
    exact ⟨a, b, c, d, e, f, rfl, by simp [hall], by simp [hall], by simp [hall]⟩

/-- The first four digits of a six-digit number are its hundreds, the last two the rest. -/
theorem value_pad_six {n : ℕ} {a b c d e f : Char} (hpad : pad 6 n = [a, b, c, d, e, f])
    (hlast : [e, f].all Char.isDigit) :
    value [a, b, c, d] = n / 100 ∧ value [e, f] = n % 100 := by
  have hlt : value [e, f] < 10 ^ 2 := value_lt hlast
  have hn := value_pad 6 n
  have hnil : value [] = 0 := rfl
  rw [hpad] at hn
  simp only [value_cons, hnil, List.length_cons, List.length_nil] at hn hlt ⊢
  omega

/-- A signed six-digit year cut after the month is matched by backtracking: six year
digits leave no day and five leave no month, but with four the last two digits of the
year are taken as a month and the month as a day. -/
theorem findSome_wide {sgn : Char} {s : ℤ} {n m : ℕ} {rest : List Char} {t : TimeParts}
    (hsign : ∀ cs, optSign (sgn :: cs) = (s, cs)) (hn : n < 10 ^ 6) (hm : m < 10 ^ 2)
    (hend : DayEnd rest) (htime : timePart rest = some t) :
    [6, 5, 4].findSome? (fun k =>
      matchFormat k (sgn :: (pad 6 n ++ '-' :: (pad 2 m ++ rest)))) =
        some ((s * (n / 100 : ℕ), n % 100, m), t) := by
  obtain ⟨a, b, c, d, e, f, hpad, he, hf, hfour⟩ := pad_six hn
  have htwo : [e, f].all Char.isDigit := by simp [he, hf]
  have hfive : [a, b, c, d, e].all Char.isDigit := by
    simp only [List.all_cons, List.all_nil, Bool.and_true, Bool.and_eq_true] at hfour ⊢
    exact ⟨hfour.1, hfour.2.1, hfour.2.2.1, hfour.2.2.2, he⟩
  have hsix : [a, b, c, d, e, f].all Char.isDigit := by
    rw [← hpad]
    exact List.all_eq_true.mpr fun c hc => isDigit_of_mem_pad hc
  have hdash : optDash ('-' :: (pad 2 m ++ rest)) = pad 2 m ++ rest := rfl
  have hmonth := take_pad rest (by decide) hm
  have h6 : matchFormat 6 (sgn :: (pad 6 n ++ '-' :: (pad 2 m ++ rest))) = none := by
    have htake := take_append ('-' :: (pad 2 m ++ rest)) hsix
    simp only [List.length_cons, List.length_nil, List.cons_append, List.nil_append] at htake
    simp [matchFormat, datePart, hsign, hpad, htake, hdash, hmonth, hend.take_none.1]
  have h5 : matchFormat 5 (sgn :: (pad 6 n ++ '-' :: (pad 2 m ++ rest))) = none := by
    have htake := take_append (f :: '-' :: (pad 2 m ++ rest)) hfive
    have hnone := take_eq_none (n := 2) (c := '-') [f] (pad 2 m ++ rest) rfl (by simp)
    simp only [List.length_cons, List.length_nil, List.cons_append, List.nil_append] at htake hnone
    simp [matchFormat, datePart, hsign, hpad, htake, optDash_of_isDigit _ hf, hnone]
  have h4 : matchFormat 4 (sgn :: (pad 6 n ++ '-' :: (pad 2 m ++ rest))) =
      some ((s * (value [a, b, c, d] : ℕ), value [e, f], m), t) := by
    have htake := take_append (e :: f :: '-' :: (pad 2 m ++ rest)) hfour
    have hlast := take_append ('-' :: (pad 2 m ++ rest)) htwo
    simp only [List.length_cons, List.length_nil, List.cons_append, List.nil_append] at htake hlast
    simp [matchFormat, datePart, hsign, hpad, htake, optDash_of_isDigit _ he, hlast, hdash,
      hmonth, htime]
  obtain ⟨hyear, hmonth'⟩ := value_pad_six hpad htwo
  rw [hyear, hmonth'] at h4
  simp [List.findSome?, h6, h5, h4]

/-- The sign of a number. -/
theorem optSign_of_sign {y : ℤ} {sgn : Char} (hsgn : sgn = if y < 0 then '-' else '+')
    (hy : y ≠ 0) (cs : List Char) : optSign (sgn :: cs) = (y.sign, cs) := by
  subst hsgn
  by_cases hneg : y < 0
  · rw [if_pos hneg, Int.sign_eq_neg_one_of_neg hneg]
    rfl
  · rw [if_neg hneg, Int.sign_eq_one_of_pos (by omega)]
    rfl

/-- A signed six-digit year cut after the month is decoded by `DateTime.parse`: its hundreds
are the year, the other two digits the month, and the month is the day. -/
theorem parse_wide {sgn : Char} {y : ℤ} {m : ℕ} {rest : List Char}
    (hsgn : sgn = if y < 0 then '-' else '+') (hy : y ≠ 0) (hbig : y.natAbs < 10 ^ 6)
    (hm : m < 10 ^ 2) (hend : DayEnd rest) :
    (parse (String.ofList (sgn :: (pad 6 y.natAbs ++ '-' :: (pad 2 m ++ rest))))).map date =
      some (.normalize (y.sign * (y.natAbs / 100 : ℕ)) (y.natAbs % 100 : ℕ) m) := by
  obtain ⟨t, htime, hoffset, hclock⟩ := hend.timePart
  have hfind := findSome_wide (optSign_of_sign hsgn hy) hbig hm hend htime
  simp only [parse, String.toList_ofList, hfind, Option.bind_eq_bind, Option.bind_some]
  refine ofFields_date t.isUtc ?_ (by omega) hm ?_ hclock
  · rcases Int.lt_or_gt_of_ne hy with hneg | hpos
    · rw [Int.sign_eq_neg_one_of_neg hneg]
      omega
    · rw [Int.sign_eq_one_of_pos hpos]
      omega
  · rw [hoffset]
    omega

/-- A signed four-digit year cut inside the day is rejected by `DateTime.parse`: one
digit of the day is left. -/
theorem parse_negative {n m : ℕ} {d : Char} {rest : List Char} (hn : n < 10 ^ 4)
    (hm : m < 10 ^ 2) (hend : DayEnd rest) :
    parse (String.ofList ('-' :: (pad 4 n ++ '-' :: (pad 2 m ++ '-' :: d :: rest)))) = none := by
  have hsign : ∀ cs, optSign ('-' :: cs) = (-1, cs) := fun _ => rfl
  have hdash : ∀ cs, optDash ('-' :: cs) = cs := fun _ => rfl
  have hwide : ∀ k, 4 < k →
      matchFormat k ('-' :: (pad 4 n ++ '-' :: (pad 2 m ++ '-' :: d :: rest))) = none :=
    fun k hk => matchFormat_wide (Or.inr (Or.inr ⟨rfl, rfl⟩)) (block_pad (by decide) hn)
      (by decide) hk _
  have hfour : matchFormat 4 ('-' :: (pad 4 n ++ '-' :: (pad 2 m ++ '-' :: d :: rest))) = none := by
    have htake := take_pad ('-' :: (pad 2 m ++ '-' :: d :: rest)) (by decide) hn
    have hmonth := take_pad ('-' :: d :: rest) (by decide) hm
    simp [matchFormat, datePart, hsign, htake, hdash, hmonth, hend.take_none.2]
  simp [parse, List.findSome?, hwide 6 (by decide), hwide 5 (by decide), hfour]

/-- Beyond four digits of year, ten characters reach the end of the month only. -/
theorem isoDay_wide {t : DateTime} (hyear : t.date.year < -9999 ∨ 9999 < t.date.year)
    (hbig : t.date.year.natAbs < 10 ^ 6) :
    t.isoDay.toList = (if t.date.year < 0 then '-' else '+') ::
      (pad 6 t.date.year.natAbs ++ '-' :: pad 2 t.date.month) := by
  obtain ⟨hmonth, _⟩ := month_day_lt t.date
  have hlength := pad_length (w := 6) (by decide) hbig
  have hlength' := pad_length (w := 2) (by decide) hmonth
  have hiso : isoYear t.date.year =
      (if t.date.year < 0 then '-' else '+') :: pad 6 t.date.year.natAbs := by
    have hout : ¬ (-9999 ≤ t.date.year ∧ t.date.year ≤ 9999) := by omega
    by_cases hneg : t.date.year < 0
    · rw [isoYear, if_neg hout, if_pos hneg, if_pos hneg]
    · rw [isoYear, if_neg hout, if_neg hneg, if_neg hneg]
  have htext : t.toIso8601String.toList = ((if t.date.year < 0 then '-' else '+') ::
      (pad 6 t.date.year.natAbs ++ '-' :: pad 2 t.date.month)) ++
        '-' :: (pad 2 t.date.day ++ 'T' :: t.isoTime) := by
    simp [toIso8601String, hiso]
  rw [isoDay, substring, String.toList_ofList, htext, List.take_left' (by simp [hlength, hlength']),
    List.drop_zero]

/-- For the years -9999 to -1, ten characters end inside the day. -/
theorem isoDay_negative {t : DateTime} (hyear : -9999 ≤ t.date.year ∧ t.date.year < 0) :
    ∃ d : Char, t.isoDay.toList =
      '-' :: (pad 4 t.date.year.natAbs ++ '-' :: (pad 2 t.date.month ++ ['-', d])) := by
  obtain ⟨hmonth, hday⟩ := month_day_lt t.date
  have hlength := pad_length (w := 4) (by decide) (show t.date.year.natAbs < 10 ^ 4 by omega)
  have hlength' := pad_length (w := 2) (by decide) hmonth
  have hlengthDay := pad_length (w := 2) (by decide) hday
  have hiso : isoYear t.date.year = '-' :: pad 4 t.date.year.natAbs := by
    rw [isoYear, if_pos ⟨hyear.1, by omega⟩, if_pos hyear.2]
  match hpad : pad 2 t.date.day, hlengthDay with
  | [d, d'], _ =>
    refine ⟨d, ?_⟩
    have htext : t.toIso8601String.toList = ('-' :: (pad 4 t.date.year.natAbs ++
        '-' :: (pad 2 t.date.month ++ ['-', d]))) ++ d' :: 'T' :: t.isoTime := by
      simp [toIso8601String, hiso, hpad]
    rw [isoDay, substring, String.toList_ofList, htext,
      List.take_left' (by simp [hlength, hlength']), List.drop_zero]

/-- The day that the ten characters kept of a date are decoded to: the day itself for a year
of at most four digits and without a sign. Beyond, the hundreds of the year are read as the
year, its last two digits as the month and the month as the day; and the years -9999 to -1
leave one digit of the day only, which is rejected. -/
def keptDay (c : CivilDate) : Option CivilDate :=
  if 0 ≤ c.year ∧ c.year ≤ 9999 then some c
  else if -9999 ≤ c.year ∧ c.year < 0 then none
  else some (.normalize (c.year.sign * (c.year.natAbs / 100 : ℕ)) (c.year.natAbs % 100 : ℕ) c.month)

/-- The day of a four-digit year is kept. -/
theorem keptDay_eq {c : CivilDate} (hyear : 0 ≤ c.year ∧ c.year ≤ 9999) : keptDay c = some c := by
  rw [keptDay, if_pos hyear]

/-- **Decoding the ten characters.** The cut text of a day, alone or followed by a
valid hour, is read by `DateTime.parse` as the kept day. -/
theorem parse_isoDay_date {t : DateTime} {rest : List Char}
    (hbig : t.date.year.natAbs < 10 ^ 6) (hend : DayEnd rest) :
    (parse (String.ofList (t.isoDay.toList ++ rest))).map date = keptDay t.date := by
  obtain ⟨hmonth, hday⟩ := month_day_lt t.date
  by_cases hfour : 0 ≤ t.date.year ∧ t.date.year ≤ 9999
  · obtain ⟨p, htime, hoffset, hclock⟩ := hend.timePart
    have hfind := findSome_ymd rest ⟨hfour.1, by omega⟩ htime
    rw [keptDay_eq hfour, isoDay_eq hfour, String.toList_ofList]
    simp only [parse, String.toList_ofList, hfind, Option.bind_eq_bind, Option.bind_some]
    rw [ofFields_date p.isUtc (by omega) (by omega) (by omega) ?_ hclock,
      CivilDate.normalize_self]
    rw [hoffset]
    omega
  · by_cases hneg : -9999 ≤ t.date.year ∧ t.date.year < 0
    · obtain ⟨d, htext⟩ := isoDay_negative hneg
      have hnone := parse_negative (d := d) (show t.date.year.natAbs < 10 ^ 4 by omega) hmonth hend
      rw [keptDay, if_neg hfour, if_pos hneg, htext]
      simp only [List.cons_append, List.append_assoc, List.nil_append]
      rw [hnone, Option.map_none]
    · rw [keptDay, if_neg hfour, if_neg hneg, isoDay_wide (by omega) hbig]
      simp only [List.cons_append, List.append_assoc]
      exact parse_wide rfl (by omega) hbig hmonth hend

/-- A `DateTime` whose cut text can be decoded again. -/
def Storable (t : DateTime) : Prop := ¬ (-9999 ≤ t.date.year ∧ t.date.year < 0)

instance (t : DateTime) : Decidable t.Storable := inferInstanceAs (Decidable (¬ _))

/-- A date is storable exactly when some day is kept of it. -/
theorem keptDay_isSome {t : DateTime} : (keptDay t.date).isSome ↔ t.Storable := by
  unfold keptDay Storable
  split_ifs <;> grind

/-- The cut text is decoded with a valid hour to the kept day. -/
theorem parse_isoDay_hour_date {t : DateTime} (h : Hour) (hbig : t.date.year.natAbs < 10 ^ 6) :
    (parse (t.isoDay ++ " " ++ h.text)).map date = keptDay t.date := by
  have htext : t.isoDay ++ " " ++ h.text =
      String.ofList (t.isoDay.toList ++ ' ' :: h.text.toList) := by
    rw [← String.toList_inj]
    simp
  rw [htext, parse_isoDay_date hbig (Or.inr ⟨h, rfl⟩)]

/-- The cut text is decoded with a valid hour exactly when the date is storable. -/
theorem parse_isoDay_hour {t : DateTime} (h : Hour) (hbig : t.date.year.natAbs < 10 ^ 6) :
    (parse (t.isoDay ++ " " ++ h.text)).isSome ↔ t.Storable := by
  rw [← keptDay_isSome, ← parse_isoDay_hour_date h hbig, Option.isSome_map]

/-- The cut text is decoded alone exactly when the date is storable. -/
theorem parse_isoDay {t : DateTime} (hbig : t.date.year.natAbs < 10 ^ 6) :
    (parse t.isoDay).isSome ↔ t.Storable := by
  have hdate := parse_isoDay_date hbig (Or.inl rfl)
  rw [List.append_nil, String.ofList_toList] at hdate
  rw [← keptDay_isSome, ← hdate, Option.isSome_map]

end DateTime

namespace DateFormat

/-! ## The text of a form field -/

/-- Three parts of digits are put in the opposite order. -/
theorem splitReversedJoin_pad {sep : Char} (glue : Char) (hsep : sep.isDigit = false)
    (u v w i j k : ℕ) :
    splitReversedJoin sep glue (String.ofList (pad u i ++ sep :: (pad v j ++ sep :: pad w k))) =
      String.ofList (pad w k ++ glue :: (pad v j ++ glue :: pad u i)) := by
  have hparts : ∀ l ∈ [pad u i, pad v j, pad w k], sep ∉ l := by
    intro l hl
    simp only [List.mem_cons, List.not_mem_nil, or_false] at hl
    rcases hl with rfl | rfl | rfl <;> exact notMem_pad hsep
  have hsplit := List.splitOn_intercalate sep hparts (by simp)
  have hjoin : List.intercalate [sep] [pad u i, pad v j, pad w k] =
      pad u i ++ sep :: (pad v j ++ sep :: pad w k) := by
    simp [List.intercalate]
  rw [hjoin] at hsplit
  simp [splitReversedJoin, hsplit, List.intercalate]

/-- Splitting, reversing and joining a form text gives `YYYY-MM-DD`. -/
theorem splitReversedJoin_format (t : DateTime) :
    splitReversedJoin '/' '-' (format t) = String.ofList (ymd t.date) :=
  splitReversedJoin_pad '-' rfl _ _ _ _ _ _

/-- Splitting, reversing and joining the ten characters of a date gives its form text. -/
theorem splitReversedJoin_isoDay {t : DateTime} (hyear : 0 ≤ t.date.year ∧ t.date.year ≤ 9999) :
    splitReversedJoin '-' '/' t.isoDay = format t := by
  rw [DateTime.isoDay_eq hyear]
  exact splitReversedJoin_pad '/' rfl _ _ _ _ _ _

end DateFormat

/-- A form field holding the text of a date is read as midnight of its day. -/
theorem DateTimeField.parsed_format {t : DateTime} {f : DateTimeField}
    (htext : f.text = DateFormat.format t) (hyear : 0 ≤ t.date.year)
    (hrange : DateTime.InRange (t.date.toDays * microsPerDay)) :
    f.parsed = some (DateTime.midnight t.date) := by
  rw [parsed, htext, DateFormat.splitReversedJoin_format, DateTime.parse_ymd hyear hrange]

end Dart
