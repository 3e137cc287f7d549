import EthosApp.Dart.DateTime

/-!
# Local time zones

The zone of a device gives the offset from UTC in force at each local time. It only
matters where instants are compared or where a local `DateTime` is converted to UTC.
-/

namespace Dart

/-- A time zone, seen from the wall clock. -/
structure Zone where
  /-- Seconds by which a local time is ahead of UTC. -/
  offset : ℤ → ℤ
  /-- An offset is less than a day. -/
  offset_lt : ∀ w, -86400 < offset w ∧ offset w < 86400
  /-- Two offsets of one zone differ by less than a day. -/
  offset_spread : ∀ v w, offset v - offset w < 86400

/-- The zone with a constant offset. -/
def Zone.fixed (offset : ℤ) (hoffset : -86400 < offset ∧ offset < 86400 := by decide) : Zone :=
  ⟨fun _ => offset, fun _ => hoffset, by simp⟩

/-- An offset of zero is within a day. -/
theorem Zone.zero_lt_day : -86400 < (0 : ℤ) ∧ (0 : ℤ) < 86400 := by decide

/-- An offset of an hour is within a day. -/
theorem Zone.hour_lt_day : -86400 < (3600 : ℤ) ∧ (3600 : ℤ) < 86400 := by decide

namespace DateTime

/-- The instant of a `DateTime`: its wall clock in UTC. -/
def instant (z : Zone) (t : DateTime) : ℤ :=
  if t.isUtc then t.wall else t.wall - z.offset t.wall * 1000000

/-- `toUtc()`. -/
def toUtc (z : Zone) (t : DateTime) : DateTime :=
  if t.isUtc then t else ofWall (t.instant z) true

/-- `a.isBefore(b)`. -/
def isBefore (z : Zone) (a b : DateTime) : Bool := a.instant z < b.instant z

/-- `a.isAfter(b)`. -/
def isAfter (z : Zone) (a b : DateTime) : Bool := b.instant z < a.instant z

/-- `a == b`: the same instant with the same UTC flag. -/
def sameMoment (z : Zone) (a b : DateTime) : Bool :=
  a.instant z = b.instant z && a.isUtc = b.isUtc

end DateTime

end Dart
