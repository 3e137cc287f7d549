import EthosApp.Dart.DateText
import Mathlib.Tactic.Ring

/-!
# Adding durations to local times

`DateTime.add` moves the instant, and the wall clock of the result is read with the offset
in force at the new instant. Whole days of 24 hours added to a local midnight lead to the
day that is as many days later where the offset has not changed in between. If it is
smaller at the new instant, the wall clock shows an hour of the day before.
-/

namespace Dart

open Gregorian

/-- A time zone, seen from the wall clock and from the instants. Its offsets may differ by
any amount, as where a zone moves across the date line. -/
structure LocalZone where
  /-- Seconds by which a local time is ahead of UTC. -/
  offset : ℤ → ℤ
  /-- Seconds by which the local time is ahead of UTC at an instant. -/
  offsetAt : ℤ → ℤ
  /-- The offset of a local time is less than a day. -/
  offset_lt : ∀ w, -86400 < offset w ∧ offset w < 86400
  /-- The offset in force at an instant is less than a day. -/
  offsetAt_lt : ∀ i, -86400 < offsetAt i ∧ offsetAt i < 86400
  /-- Every midnight exists: the offset used for it is the one in force at its instant. -/
  offsetAt_midnight : ∀ c : CivilDate,
    offsetAt (c.toDays * microsPerDay - offset (c.toDays * microsPerDay) * 1000000) =
      offset (c.toDays * microsPerDay)

namespace LocalZone

/-- The zone with a constant offset. -/
def fixed (offset : ℤ) (hoffset : -86400 < offset ∧ offset < 86400 := by decide) : LocalZone :=
  ⟨fun _ => offset, fun _ => offset, fun _ => hoffset, fun _ => hoffset, fun _ => rfl⟩

/-- A zone that turns its clocks back once, from two hours ahead of UTC to one, when they
show a given time. -/
def turnedBack (w₀ : ℤ) : LocalZone where
  offset w := if w < w₀ then 7200 else 3600
  offsetAt i := if i < w₀ - 7200000000 then 7200 else 3600
  offset_lt w := by split <;> omega
  offsetAt_lt i := by split <;> omega
  offsetAt_midnight c := by split <;> split <;> omega

/-- The instant of a `DateTime`: its wall clock in UTC. -/
def instant (z : LocalZone) (t : DateTime) : ℤ :=
  if t.isUtc then t.wall else t.wall - z.offset t.wall * 1000000

/-- The microseconds of whole days, `Duration(days: n)`. -/
def days (n : ℕ) : ℤ := n * microsPerDay

/-- `t.add(duration)`. A time that cannot be represented is rejected. -/
def add (z : LocalZone) (t : DateTime) (duration : ℤ) : Option DateTime :=
  let i := z.instant t + duration
  if DateTime.InRange i then
    if t.isUtc then some (DateTime.ofWall i true)
    else some (DateTime.ofWall (i + z.offsetAt i * 1000000) false)
  else none

/-- Seconds that the local clock gains, against the exact duration of `n` days, from the
midnight of a day: the change of the offset. -/
def gain (z : LocalZone) (c : CivilDate) (n : ℕ) : ℤ :=
  z.offsetAt (z.instant (DateTime.midnight c) + days n) - z.offset (c.toDays * microsPerDay)

/-- The number of the day that the local clock shows `n` days of 24 hours after the
midnight of a day. -/
def dayAfter (z : LocalZone) (c : CivilDate) (n : ℕ) : ℤ := c.toDays + n + z.gain c n / 86400

/-- The instant of a local midnight. -/
theorem instant_midnight (z : LocalZone) (c : CivilDate) :
    z.instant (DateTime.midnight c) =
      c.toDays * microsPerDay - z.offset (c.toDays * microsPerDay) * 1000000 := by
  simp [instant, DateTime.midnight, DateTime.wall]

/-- **Adding days to a midnight.** Where the result can be represented, it falls on the
day shown by the local clock. -/
theorem add_days {z : LocalZone} {c : CivilDate} {n : ℕ}
    (hrange : DateTime.InRange (z.instant (DateTime.midnight c) + days n)) :
    ∃ t, z.add (DateTime.midnight c) (days n) = some t ∧ t.date.toDays = z.dayAfter c n := by
  refine ⟨_, by rw [add, if_pos hrange]; rfl, ?_⟩
  have hwall : z.instant (DateTime.midnight c) + days n +
      z.offsetAt (z.instant (DateTime.midnight c) + days n) * 1000000 =
        (c.toDays + n) * microsPerDay + z.gain c n * 1000000 := by
    rw [gain]
    generalize z.offsetAt (z.instant (DateTime.midnight c) + days n) = o
    rw [instant_midnight, days]
    ring
  rw [hwall, DateTime.ofWall, CivilDate.toDays_ofDays, dayAfter]
  unfold microsPerDay
  omega

/-- Within a year from a day whose year has at most five digits, all times can be
represented. -/
theorem inRange_add_days (z : LocalZone) {c : CivilDate} {n : ℕ} (hyear : c.year.natAbs < 10 ^ 5)
    (hn : n ≤ 365) : DateTime.InRange (z.instant (DateTime.midnight c) + days n) := by
  have hoffset := z.offset_lt (c.toDays * microsPerDay)
  have hlow : ¬ c.year < -99999 := by omega
  have hhigh : c.year < 100000 := by omega
  rw [CivilDate.year_lt_iff] at hlow hhigh
  rw [instant_midnight, days]
  unfold daysBeforeYear at hlow hhigh
  unfold DateTime.InRange microsPerDay at *
  omega

/-- The local clock shows the exact day if it neither loses time nor gains a whole day. -/
theorem dayAfter_eq_iff {z : LocalZone} {c : CivilDate} {n : ℕ} :
    z.dayAfter c n = c.toDays + n ↔ 0 ≤ z.gain c n ∧ z.gain c n < 86400 := by
  unfold dayAfter
  omega

/-- Nothing is gained in no time. -/
theorem gain_zero (z : LocalZone) (c : CivilDate) : z.gain c 0 = 0 := by
  have hlaw := z.offsetAt_midnight c
  rw [← instant_midnight] at hlaw
  simp [gain, days, hlaw]

/-- The local clock shows no earlier day, from no time or two days on. -/
theorem le_dayAfter (z : LocalZone) (c : CivilDate) {n : ℕ} (hn : n = 0 ∨ 2 ≤ n) :
    c.toDays ≤ z.dayAfter c n := by
  unfold dayAfter
  rcases hn with rfl | hn
  · rw [gain_zero]
    omega
  · have hbefore := z.offset_lt (c.toDays * microsPerDay)
    have hafter := z.offsetAt_lt (z.instant (DateTime.midnight c) + days n)
    unfold gain
    omega

end LocalZone

end Dart
