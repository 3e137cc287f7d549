import Mathlib.Data.Nat.Find
import Mathlib.Data.Int.ConditionallyCompleteOrder
import Mathlib.Order.ConditionallyCompleteLattice.Basic
import Mathlib.Order.Monotone.Basic
import Mathlib.Order.Lattice
import Mathlib.Algebra.Order.Ring.Int

/-!
# The proleptic Gregorian calendar

Civil days are numbered by the integers, day zero being 1 January of year zero. A
`CivilDate` carries the proof that its month and day exist, so that civil dates and
day numbers correspond one to one. `CivilDate.normalize` reads any triple of numbers
as a civil date, letting months and days overflow into the neighbouring ones.
-/

namespace Gregorian

/-- The leap years of the Gregorian rule, extended to all integers. -/
def IsLeap (y : ℤ) : Prop := y % 4 = 0 ∧ (y % 100 ≠ 0 ∨ y % 400 = 0)

instance (y : ℤ) : Decidable (IsLeap y) := inferInstanceAs (Decidable (_ ∧ _))

/-- The number of the first day of a year. -/
def daysBeforeYear (y : ℤ) : ℤ := 365 * y + (y + 3) / 4 - (y + 99) / 100 + (y + 399) / 400

/-- The number of days in a month. -/
def monthLength (y : ℤ) : ℕ → ℕ
  | 2 => if IsLeap y then 29 else 28
  | 4 | 6 | 9 | 11 => 30
  | _ => 31

/-- The number of days of a year that precede a month. Month 13 gives the whole year. -/
def daysBeforeMonth (y : ℤ) : ℕ → ℕ
  | 0 => 0
  | 1 => 0
  | m + 2 => daysBeforeMonth y (m + 1) + monthLength y (m + 1)

/-- Consecutive years are 366 or 365 days apart. -/
theorem daysBeforeYear_succ (y : ℤ) :
    daysBeforeYear (y + 1) = daysBeforeYear y + (if IsLeap y then 366 else 365) := by
  by_cases h : IsLeap y
  · rw [if_pos h]
    obtain ⟨h4, h | h⟩ := h <;> unfold daysBeforeYear <;> omega
  · rw [if_neg h]
    have hrule : y % 4 ≠ 0 ∨ (y % 100 = 0 ∧ y % 400 ≠ 0) := by
      unfold IsLeap at h
      omega
    unfold daysBeforeYear
    omega

/-- Later years begin later. -/
theorem daysBeforeYear_strictMono : StrictMono daysBeforeYear := by
  apply strictMono_int_of_lt_succ
  intro y
  rw [daysBeforeYear_succ]
  split <;> omega

/-- The first day of a year stays close to its mean position in the 400-year cycle. -/
theorem daysBeforeYear_bounds (y : ℤ) :
    146097 * y - 396 ≤ 400 * daysBeforeYear y ∧ 400 * daysBeforeYear y ≤ 146097 * y + 699 := by
  unfold daysBeforeYear
  omega

/-- The year containing a day: the mean year, corrected by at most one. -/
def yearOf (n : ℤ) : ℤ :=
  let y := 400 * n / 146097
  if n < daysBeforeYear y then y - 1
  else if daysBeforeYear (y + 1) ≤ n then y + 1 else y

/-- A day lies in the year computed for it. -/
theorem yearOf_spec (n : ℤ) :
    daysBeforeYear (yearOf n) ≤ n ∧ n < daysBeforeYear (yearOf n + 1) := by
  unfold yearOf
  have hmean : 146097 * (400 * n / 146097) ≤ 400 * n ∧
      400 * n < 146097 * (400 * n / 146097) + 146097 := by omega
  simp only
  generalize 400 * n / 146097 = y at hmean ⊢
  split
  · have hbounds := daysBeforeYear_bounds (y - 1)
    rw [Int.sub_add_cancel]
    omega
  · split
    · have hbounds := daysBeforeYear_bounds (y + 1 + 1)
      omega
    · omega

/-- A day belongs to only one year. -/
theorem yearOf_eq {n y : ℤ} (hle : daysBeforeYear y ≤ n) (hlt : n < daysBeforeYear (y + 1)) :
    yearOf n = y := by
  obtain ⟨hle', hlt'⟩ := yearOf_spec n
  have h₁ := daysBeforeYear_strictMono.lt_iff_lt.mp (hle'.trans_lt hlt)
  have h₂ := daysBeforeYear_strictMono.lt_iff_lt.mp (hle.trans_lt hlt')
  omega

/-- A month adds its own length to the days before the next one. -/
theorem daysBeforeMonth_succ (y : ℤ) {m : ℕ} (hm : 1 ≤ m) :
    daysBeforeMonth y (m + 1) = daysBeforeMonth y m + monthLength y m := by
  obtain ⟨k, rfl⟩ := Nat.exists_eq_add_of_le' hm
  rfl

/-- The months of a year fill it exactly. -/
theorem daysBeforeMonth_thirteen (y : ℤ) :
    (daysBeforeMonth y 13 : ℤ) = daysBeforeYear (y + 1) - daysBeforeYear y := by
  rw [daysBeforeYear_succ]
  by_cases h : IsLeap y <;> simp [daysBeforeMonth, monthLength, h]

/-- Every month has at least 28 and at most 31 days. -/
theorem monthLength_bounds (y : ℤ) (m : ℕ) : 28 ≤ monthLength y m ∧ monthLength y m ≤ 31 := by
  unfold monthLength
  split
  · split <;> omega
  all_goals omega

/-- Later months begin later in the year. -/
theorem daysBeforeMonth_mono (y : ℤ) : Monotone (daysBeforeMonth y) := by
  apply monotone_nat_of_le_succ
  intro m
  cases m with
  | zero => exact le_rfl
  | succ m =>
    rw [daysBeforeMonth_succ y (Nat.succ_pos m)]
    exact Nat.le_add_right _ _

/-- The month containing a day of the year. -/
def monthOf (y : ℤ) (k : ℕ) : ℕ := Nat.findGreatest (fun m => daysBeforeMonth y m ≤ k) 12

/-- A day of the year lies in the month computed for it. -/
theorem monthOf_spec {y : ℤ} {k : ℕ} (hk : k < daysBeforeMonth y 13) :
    1 ≤ monthOf y k ∧ monthOf y k ≤ 12 ∧ daysBeforeMonth y (monthOf y k) ≤ k ∧
      k < daysBeforeMonth y (monthOf y k + 1) := by
  have hone : daysBeforeMonth y 1 ≤ k := Nat.zero_le k
  have hpos : 1 ≤ monthOf y k := Nat.le_findGreatest (by decide) hone
  have hle : monthOf y k ≤ 12 := Nat.findGreatest_le 12
  refine ⟨hpos, hle, ?_, ?_⟩
  · exact Nat.findGreatest_spec (P := fun m => daysBeforeMonth y m ≤ k) (by decide) hone
  · by_cases htop : monthOf y k = 12
    · rwa [htop]
    · have := Nat.findGreatest_is_greatest (P := fun m => daysBeforeMonth y m ≤ k) (n := 12)
        (k := monthOf y k + 1) (Nat.lt_succ_self _) (by omega)
      omega

/-- A day of the year belongs to only one month. -/
theorem monthOf_eq {y : ℤ} {m k : ℕ} (hm : 1 ≤ m ∧ m ≤ 12) (hle : daysBeforeMonth y m ≤ k)
    (hlt : k < daysBeforeMonth y (m + 1)) : monthOf y k = m := by
  have hk : k < daysBeforeMonth y 13 := hlt.trans_le (daysBeforeMonth_mono y (by omega))
  obtain ⟨_, _, hle', hlt'⟩ := monthOf_spec hk
  rcases Nat.lt_trichotomy (monthOf y k) m with h | h | h
  · have := daysBeforeMonth_mono y (show monthOf y k + 1 ≤ m by omega)
    omega
  · exact h
  · have := daysBeforeMonth_mono y (show m + 1 ≤ monthOf y k by omega)
    omega

/-- A day of the calendar. The month and the day exist by construction. -/
@[ext] structure CivilDate where
  /-- The year, counted astronomically: year zero precedes year one. -/
  year : ℤ
  /-- The month, from January as 1. -/
  month : ℕ
  /-- The day of the month. -/
  day : ℕ
  /-- Months count from one. -/
  month_pos : 1 ≤ month
  /-- There are twelve months. -/
  month_le : month ≤ 12
  /-- Days count from one. -/
  day_pos : 1 ≤ day
  /-- The day exists in its month. -/
  day_le : day ≤ monthLength year month
  deriving DecidableEq

namespace CivilDate

/-- The number of a civil date. -/
def toDays (c : CivilDate) : ℤ :=
  daysBeforeYear c.year + daysBeforeMonth c.year c.month + (c.day - 1)

/-- A civil date lies within its own year. -/
theorem toDays_bounds (c : CivilDate) :
    daysBeforeYear c.year ≤ c.toDays ∧ c.toDays < daysBeforeYear (c.year + 1) := by
  have hday := c.day_le
  have hpos := c.day_pos
  have hmonth := daysBeforeMonth_succ c.year c.month_pos
  have hend := daysBeforeMonth_mono c.year (show c.month + 1 ≤ 13 from Nat.succ_le_succ c.month_le)
  have hyear := daysBeforeMonth_thirteen c.year
  unfold toDays
  omega

/-- The year of a civil date is recovered from its number. -/
@[simp] theorem yearOf_toDays (c : CivilDate) : yearOf c.toDays = c.year :=
  yearOf_eq c.toDays_bounds.1 c.toDays_bounds.2

/-- Comparing years with a bound is comparing day numbers with its first day. -/
theorem year_lt_iff (c : CivilDate) (y : ℤ) : c.year < y ↔ c.toDays < daysBeforeYear y := by
  obtain ⟨hle, hlt⟩ := c.toDays_bounds
  constructor
  · intro h
    exact hlt.trans_le (daysBeforeYear_strictMono.monotone h)
  · intro h
    exact daysBeforeYear_strictMono.lt_iff_lt.mp (hle.trans_lt h)

/-- The civil date of a day number. -/
def ofDays (n : ℤ) : CivilDate :=
  let y := yearOf n
  let k := (n - daysBeforeYear y).toNat
  have hk : k < daysBeforeMonth y 13 := by
    have hspec : daysBeforeYear y ≤ n ∧ n < daysBeforeYear (y + 1) := yearOf_spec n
    have hyear := daysBeforeMonth_thirteen y
    omega
  have hm := monthOf_spec hk
  { year := y
    month := monthOf y k
    day := k - daysBeforeMonth y (monthOf y k) + 1
    month_pos := hm.1
    month_le := hm.2.1
    day_pos := Nat.succ_pos _
    day_le := by
      have hlen := daysBeforeMonth_succ y hm.1
      omega }

/-- Every number is the number of the civil date computed for it. -/
@[simp] theorem toDays_ofDays (n : ℤ) : (ofDays n).toDays = n := by
  have hspec := yearOf_spec n
  have hyear := daysBeforeMonth_thirteen (yearOf n)
  have hm := monthOf_spec (y := yearOf n) (k := (n - daysBeforeYear (yearOf n)).toNat) (by omega)
  simp only [toDays, ofDays]
  omega

/-- Every civil date is recovered from its number. -/
@[simp] theorem ofDays_toDays (c : CivilDate) : ofDays c.toDays = c := by
  have hday := c.day_le
  have hpos := c.day_pos
  have hnext := daysBeforeMonth_succ c.year c.month_pos
  have hindex : (c.toDays - daysBeforeYear c.year).toNat =
      daysBeforeMonth c.year c.month + (c.day - 1) := by
    unfold toDays
    omega
  have hmonth : monthOf c.year (daysBeforeMonth c.year c.month + (c.day - 1)) = c.month :=
    monthOf_eq ⟨c.month_pos, c.month_le⟩ (by omega) (by omega)
  ext
  · exact c.yearOf_toDays
  · simp only [ofDays, yearOf_toDays, hindex, hmonth]
  · simp only [ofDays, yearOf_toDays, hindex, hmonth]
    omega

/-- Distinct civil dates have distinct numbers. -/
theorem toDays_injective : Function.Injective toDays := by
  intro c d h
  rw [← ofDays_toDays c, h, ofDays_toDays]

/-- Civil dates are ordered as their day numbers. -/
instance : LinearOrder CivilDate := LinearOrder.lift' toDays toDays_injective

/-- The calendar order is the order of day numbers. -/
theorem le_iff_toDays_le (c d : CivilDate) : c ≤ d ↔ c.toDays ≤ d.toDays := Iff.rfl

/-- The strict calendar order is the strict order of day numbers. -/
theorem lt_iff_toDays_lt (c d : CivilDate) : c < d ↔ c.toDays < d.toDays := Iff.rfl

/-- A day that comes first by its year, its month and its day has the smaller number. -/
theorem toDays_lt_of_fields {c d : CivilDate} (h : c.year < d.year ∨ c.year = d.year ∧
    (c.month < d.month ∨ c.month = d.month ∧ c.day < d.day)) : c.toDays < d.toDays := by
  rcases h with hyear | ⟨hyear, hmonth | ⟨hmonth, hday⟩⟩
  · exact (c.year_lt_iff d.year).mp hyear |>.trans_le d.toDays_bounds.1
  · have hlength := daysBeforeMonth_succ c.year c.month_pos
    have hmono := daysBeforeMonth_mono c.year (show c.month + 1 ≤ d.month from hmonth)
    have hday := c.day_le
    have hpos := d.day_pos
    unfold toDays
    rw [← hyear]
    omega
  · unfold toDays
    rw [← hyear, ← hmonth]
    omega

/-- Days are ordered by their years, then by their months, then by their days. -/
theorem lt_iff_fields (c d : CivilDate) : c < d ↔ c.year < d.year ∨ c.year = d.year ∧
    (c.month < d.month ∨ c.month = d.month ∧ c.day < d.day) := by
  refine ⟨fun hlt => ?_, toDays_lt_of_fields⟩
  rw [lt_iff_toDays_lt] at hlt
  have hback := mt (toDays_lt_of_fields (c := d) (d := c)) (by omega)
  have hne : ¬ (c.year = d.year ∧ c.month = d.month ∧ c.day = d.day) := by
    rintro ⟨hyear, hmonth, hday⟩
    have heq : c = d := CivilDate.ext hyear hmonth hday
    rw [heq] at hlt
    omega
  omega

/-- Later days have no earlier year. -/
theorem year_mono {c d : CivilDate} (h : c ≤ d) : c.year ≤ d.year := by
  by_contra hlt
  have hbefore := (d.year_lt_iff c.year).mp (by omega)
  have hfirst := c.toDays_bounds.1
  rw [le_iff_toDays_le] at h
  omega

/-- Read a year, a month and a day of any size as a civil date. Whole years are
carried out of the month first, and days are then counted from the first of the month. -/
def normalize (year month day : ℤ) : CivilDate :=
  let y := year + (month - 1) / 12
  let m := ((month - 1) % 12).toNat + 1
  ofDays (daysBeforeYear y + daysBeforeMonth y m + (day - 1))

/-- Normalizing the fields of a civil date gives the civil date. -/
@[simp] theorem normalize_self (c : CivilDate) : normalize c.year c.month c.day = c := by
  have hpos := c.month_pos
  have hle := c.month_le
  have hcarry : ((c.month : ℤ) - 1) / 12 = 0 := by omega
  have hmonth : (((c.month : ℤ) - 1) % 12).toNat + 1 = c.month := by omega
  simp only [normalize, hcarry, hmonth, Int.add_zero]
  exact ofDays_toDays c

/-- With the same month and day of any size, a later year gives a later date. -/
theorem normalize_lt {y y' : ℤ} (month day : ℤ) (hy : y < y') :
    normalize y month day < normalize y' month day := by
  rw [lt_iff_toDays_lt, normalize, normalize, toDays_ofDays, toDays_ofDays]
  have hmonth : ((month - 1) % 12).toNat + 2 ≤ 13 := by omega
  have hyear := daysBeforeMonth_mono (y + (month - 1) / 12) hmonth
  rw [daysBeforeMonth_succ _ (by omega)] at hyear
  have hlength := (monthLength_bounds (y + (month - 1) / 12) (((month - 1) % 12).toNat + 1)).1
  have hwhole := daysBeforeMonth_thirteen (y + (month - 1) / 12)
  have hnext : daysBeforeYear (y + (month - 1) / 12 + 1) ≤ daysBeforeYear (y' + (month - 1) / 12) :=
    daysBeforeYear_strictMono.monotone (by omega)
  omega

example : normalize 2023 2 29 = ofDays 738945 ∧ (normalize 2023 2 29).day = 1 := by decide

end CivilDate

end Gregorian
