import EthosApp.Lib.Digits
import EthosApp.Lib.Gregorian

/-!
# The `DateTime` of the Dart core library

A `DateTime` is represented by its calendar day, its time of day and its UTC flag,
that is by what its getters return. A local `DateTime` is thus identified by its wall
clock; local times are taken to exist in the zone of the device. The functions
follow the documented behaviour of `DateTime.parse`, of the component constructor
and of `toIso8601String`.
-/

namespace Dart

open Gregorian

/-- The microseconds of a day. -/
def microsPerDay : ℕ := 86400000000

/-- Dart's `DateTime`, with the resolution of the native platforms. -/
@[ext] structure DateTime where
  /-- The calendar day shown by `year`, `month` and `day`. -/
  date : CivilDate
  /-- The microseconds elapsed since midnight. -/
  micros : ℕ
  /-- Whether the fields are those of UTC rather than of the local zone. -/
  isUtc : Bool
  /-- The time of day stays within the day. -/
  micros_lt : micros < microsPerDay
  deriving DecidableEq

/-- `s.substring(i, j)`. -/
def substring (s : String) (i j : ℕ) : String := String.ofList ((s.toList.take j).drop i)

namespace DateTime

/-- Microseconds on the wall clock since the first day of year zero. -/
def wall (t : DateTime) : ℤ := t.date.toDays * microsPerDay + t.micros

/-- The `DateTime` showing a given wall clock. -/
def ofWall (w : ℤ) (isUtc : Bool) : DateTime where
  date := CivilDate.ofDays (w / microsPerDay)
  micros := (w % microsPerDay).toNat
  isUtc := isUtc
  micros_lt := by
    unfold microsPerDay
    omega

/-- The representable range: a hundred million days on either side of 1 January 1970. -/
def InRange (w : ℤ) : Prop :=
  -100000000 * microsPerDay ≤ w - 719528 * microsPerDay ∧
    w - 719528 * microsPerDay ≤ 100000000 * microsPerDay

instance (w : ℤ) : Decidable (InRange w) := inferInstanceAs (Decidable (_ ∧ _))

/-- The component constructors `DateTime(...)` and `DateTime.utc(...)`. Components out
of their range are carried over, and a time that cannot be represented is rejected. -/
def ofFields (year month day hour minute second micro : ℤ) (isUtc : Bool) : Option DateTime :=
  let w := (CivilDate.normalize year month day).toDays * microsPerDay +
    (((hour * 60 + minute) * 60 + second) * 1000000 + micro)
  if InRange w then some (ofWall w isUtc) else none

/-- Midnight of a day, on the local clock. -/
def midnight (c : CivilDate) : DateTime := ⟨c, 0, false, by decide⟩

/-- The `hour` getter. -/
def hour (t : DateTime) : ℕ := t.micros / 3600000000

/-- The `minute` getter. -/
def minute (t : DateTime) : ℕ := t.micros / 60000000 % 60

/-- The `second` getter. -/
def second (t : DateTime) : ℕ := t.micros / 1000000 % 60

/-- The `millisecond` getter. -/
def millisecond (t : DateTime) : ℕ := t.micros / 1000 % 1000

/-- The `microsecond` getter. -/
def microsecond (t : DateTime) : ℕ := t.micros % 1000

/-- The year of an ISO 8601 text: four digits, or a sign and six digits beyond year 9999. -/
def isoYear (y : ℤ) : List Char :=
  if -9999 ≤ y ∧ y ≤ 9999 then
    if y < 0 then '-' :: Digits.pad 4 y.natAbs else Digits.pad 4 y.natAbs
  else if y < 0 then '-' :: Digits.pad 6 y.natAbs else '+' :: Digits.pad 6 y.natAbs

/-- The time of an ISO 8601 text, with microseconds only where there are any. -/
def isoTime (t : DateTime) : List Char :=
  Digits.pad 2 t.hour ++ ':' :: (Digits.pad 2 t.minute ++ ':' :: (Digits.pad 2 t.second ++
    '.' :: (Digits.pad 3 t.millisecond ++
      ((if t.microsecond = 0 then [] else Digits.pad 3 t.microsecond) ++
        if t.isUtc then ['Z'] else []))))

/-- `toIso8601String()`. -/
def toIso8601String (t : DateTime) : String :=
  String.ofList (isoYear t.date.year ++ '-' :: (Digits.pad 2 t.date.month ++
    '-' :: (Digits.pad 2 t.date.day ++ 'T' :: t.isoTime)))

/-! ## `DateTime.parse` -/

/-- An optional `-`. -/
def optDash : List Char → List Char
  | '-' :: cs => cs
  | cs => cs

/-- An optional `:`. -/
def optColon : List Char → List Char
  | ':' :: cs => cs
  | cs => cs

/-- An optional blank. -/
def optBlank : List Char → List Char
  | ' ' :: cs => cs
  | cs => cs

/-- An optional sign. -/
def optSign : List Char → ℤ × List Char
  | '+' :: cs => (1, cs)
  | '-' :: cs => (-1, cs)
  | cs => (1, cs)

/-- The day part `([+-]?\d{4,6})-?(\d\d)-?(\d\d)` of the accepted format, with the
number of year digits chosen. -/
def datePart (n : ℕ) (cs : List Char) : Option ((ℤ × ℕ × ℕ) × List Char) := do
  let (y, rest) ← Digits.take n (optSign cs).2
  let (m, rest) ← Digits.take 2 (optDash rest)
  let (d, rest) ← Digits.take 2 (optDash rest)
  return (((optSign cs).1 * y, m, d), rest)

/-- What the time part of a text denotes. -/
structure TimeParts where
  /-- Hours. -/
  hour : ℕ
  /-- Minutes. -/
  minute : ℕ
  /-- Seconds. -/
  second : ℕ
  /-- Microseconds. -/
  micro : ℕ
  /-- Minutes by which the written time is ahead of UTC. -/
  offset : ℤ
  /-- Whether a zone was written. -/
  isUtc : Bool

/-- A zone offset `(\d\d)(?::?(\d\d))?` up to the end of the text, in minutes. -/
def zoneOffset (cs : List Char) : Option ℤ := do
  let (h, rest) ← Digits.take 2 cs
  if rest = [] then return 60 * h
  let (m, rest) ← Digits.take 2 (optColon rest)
  if rest = [] then return 60 * h + m else none

/-- The zone `( ?[zZ]| ?([-+])(\d\d)(?::?(\d\d))?)?` up to the end of the text. -/
def zonePart (cs : List Char) : Option (ℤ × Bool) :=
  if cs = [] then some (0, false)
  else
    match optBlank cs with
    | ['z'] => some (0, true)
    | ['Z'] => some (0, true)
    | '+' :: rest => (zoneOffset rest).map fun o => (o, true)
    | '-' :: rest => (zoneOffset rest).map fun o => (-o, true)
    | _ => none

/-- Fractional seconds `(?:[.,](\d+))?`, of which six digits count. -/
def fraction : List Char → Option (ℕ × List Char)
  | c :: cs =>
    if c = '.' ∨ c = ',' then
      let ds := cs.takeWhile Char.isDigit
      if ds = [] then none
      else some (Digits.value ((ds ++ List.replicate 6 '0').take 6), cs.dropWhile Char.isDigit)
    else some (0, c :: cs)
  | [] => some (0, [])

/-- The time part after its separator. Minutes, seconds and fraction are optional in turn. -/
def clockPart (cs : List Char) : Option TimeParts := do
  let (h, rest) ← Digits.take 2 cs
  match Digits.take 2 (optColon rest) with
  | none =>
    let (o, utc) ← zonePart rest
    return ⟨h, 0, 0, 0, o, utc⟩
  | some (mi, rest) =>
    match Digits.take 2 (optColon rest) with
    | none =>
      let (o, utc) ← zonePart rest
      return ⟨h, mi, 0, 0, o, utc⟩
    | some (s, rest) =>
      let (f, rest) ← fraction rest
      let (o, utc) ← zonePart rest
      return ⟨h, mi, s, f, o, utc⟩

/-- The optional time part, after a blank or a `T`. -/
def timePart : List Char → Option TimeParts
  | [] => some ⟨0, 0, 0, 0, 0, false⟩
  | c :: cs => if c = ' ' ∨ c = 'T' then clockPart cs else none

/-- A match of the whole text with a given number of year digits. -/
def matchFormat (n : ℕ) (cs : List Char) : Option ((ℤ × ℕ × ℕ) × TimeParts) := do
  let (d, rest) ← datePart n cs
  let t ← timePart rest
  return (d, t)

/-- `DateTime.parse`. The number of year digits is the only choice of the format that a
text can leave open, and the longest is tried first. A missing match and a time out of
range both throw a `FormatException`, rendered as `none`. Reducing the parser on an
unknown text is slow, so that it only unfolds by name. -/
@[irreducible] def parse (s : String) : Option DateTime := do
  let ((y, m, d), t) ← [6, 5, 4].findSome? fun n => matchFormat n s.toList
  ofFields y m d t.hour (t.minute - t.offset) t.second t.micro t.isUtc

end DateTime

/-- A valid hour `HH:MM:SS` of the day. -/
structure Hour where
  /-- The hour. -/
  hour : ℕ
  /-- The minute. -/
  minute : ℕ
  /-- The second. -/
  second : ℕ
  /-- A day has 24 hours. -/
  hour_lt : hour < 24
  /-- An hour has 60 minutes. -/
  minute_lt : minute < 60
  /-- A minute has 60 seconds. -/
  second_lt : second < 60

namespace Hour

/-- The text `HH:MM:SS`. -/
def text (h : Hour) : String :=
  String.ofList (Digits.pad 2 h.hour ++ ':' :: (Digits.pad 2 h.minute ++
    ':' :: Digits.pad 2 h.second))

/-- The microseconds from midnight to the hour. -/
def micros (h : Hour) : ℕ := ((h.hour * 60 + h.minute) * 60 + h.second) * 1000000

/-- An hour of the day falls within the day. -/
theorem micros_lt (h : Hour) : h.micros < microsPerDay := by
  have hhour := h.hour_lt
  have hminute := h.minute_lt
  have hsecond := h.second_lt
  unfold micros microsPerDay
  omega

/-- The hour `00:00:00`. -/
def zero : Hour := ⟨0, 0, 0, by decide, by decide, by decide⟩

/-- The hour `10:00:00`. -/
def ten : Hour := ⟨10, 0, 0, by decide, by decide, by decide⟩

end Hour

end Dart
