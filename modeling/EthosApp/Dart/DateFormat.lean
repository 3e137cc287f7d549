import EthosApp.Dart.DateTime

/-!
# Date texts

The day of a `DateTime` is written in three ways: as the first ten characters of its
ISO 8601 form, as the `dd/MM/yyyy` text of the form fields, and as that text split,
reversed and joined again. This file models the `intl` formatter and the typed value
of a date field.
-/

namespace Dart

/-- `s.split(sep).reversed.join(glue)`. -/
def splitReversedJoin (sep glue : Char) (s : String) : String :=
  String.ofList (List.intercalate [glue] (s.toList.splitOn sep).reverse)

/-- `t.toIso8601String().substring(0, 10)`. -/
def DateTime.isoDay (t : DateTime) : String := substring t.toIso8601String 0 10

namespace DateFormat

/-- `DateFormat("dd/MM/yyyy").format`. The sign of a year is not printed. -/
def format (t : DateTime) : String :=
  String.ofList (Digits.pad 2 t.date.day ++ '/' :: (Digits.pad 2 t.date.month ++
    '/' :: Digits.pad 4 t.date.year.natAbs))

/-- A run of decimal digits of any positive length. -/
def digitRun (cs : List Char) : Option (ℕ × List Char) :=
  let ds := cs.takeWhile Char.isDigit
  if ds = [] then none else some (Digits.value ds, cs.dropWhile Char.isDigit)

/-- The literal `/` of the pattern. -/
def slash : List Char → Option (List Char)
  | '/' :: cs => some cs
  | _ => none

/-- `DateFormat("dd/MM/yyyy").parse`. The parse is lenient: the runs of digits have any
length, what follows the year is ignored, and the fields are normalized. A thrown
exception is rendered as `none`. -/
def parse (s : String) : Option DateTime := do
  let (d, rest) ← digitRun s.toList
  let rest ← slash rest
  let (m, rest) ← digitRun rest
  let rest ← slash rest
  let (y, _) ← digitRun rest
  DateTime.ofFields y m d 0 0 0 0 false

end DateFormat

/-- The state of a `DateTimeField` of the package `datetime_picker_formfield`, in the
format `dd/MM/yyyy`: the text of its controller and its value. -/
structure DateTimeField where
  /-- The text of the controller. -/
  text : String
  /-- The value the validator sees. -/
  value : Option DateTime

namespace DateTimeField

/-- A field without initial value over an empty controller. -/
def empty : DateTimeField := ⟨"", none⟩

/-- The field after its text has become `s`. A text that cannot be parsed has no value. -/
def typed (s : String) : DateTimeField := ⟨s, DateFormat.parse s⟩

/-- The field after a date has been chosen in the picker, which writes its text. -/
def picked (t : DateTime) : DateTimeField := typed (DateFormat.format t)

/-- The validator `(value) => value != null ? null : "Il campo è vuoto"`. -/
def validator (f : DateTimeField) : Option String :=
  if f.value.isSome then none else some "Il campo è vuoto"

/-- What a handler reads from the field:
`DateTime.parse(controller.text.split("/").reversed.join("-"))`. -/
def parsed (f : DateTimeField) : Option DateTime :=
  DateTime.parse (splitReversedJoin '/' '-' f.text)

/-- A field whose value, if it has one, comes with a text that the format accepts. -/
def Accepted (f : DateTimeField) : Prop := f.value.isSome → (DateFormat.parse f.text).isSome

/-- A field passes its validator exactly when it has a value. -/
theorem validator_eq_none (f : DateTimeField) : f.validator = none ↔ f.value.isSome := by
  cases hvalue : f.value with
  | none => simp [validator, hvalue]
  | some t => simp [validator, hvalue]

end DateTimeField

end Dart
