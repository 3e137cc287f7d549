import EthosApp.Dart.LocalZone
import EthosApp.Dart.TypedDate
import EthosApp.Lib.Runs
import EthosApp.Screens.CheckControl
import EthosApp.Screens.EditControl

/-!
# The date pickers of the forms

A press on a date field calls `showDatePicker`, which asserts that the initial date lies
between the first and the last date, compared by calendar day. The three dates come from
the other field, from the field itself, from the stored record or from the clock, and
from the fixed limit of the year 2100.
-/

namespace EthosApp

open Dart Gregorian Runs

/-- The dates handed to `showDatePicker`. -/
structure PickerCall where
  /-- The first day that can be picked. -/
  firstDate : DateTime
  /-- The day proposed. -/
  initialDate : DateTime
  /-- The last day that can be picked. -/
  lastDate : DateTime

/-- What `showDatePicker` asserts of its dates, of which only the days count. -/
def PickerCall.Asserted (call : PickerCall) : Prop :=
  call.firstDate.date ≤ call.initialDate.date ∧ call.initialDate.date ≤ call.lastDate.date

instance (call : PickerCall) : Decidable call.Asserted := inferInstanceAs (Decidable (_ ∧ _))

/-- The `initialDate` of the next check: `currentValue ?? (text.isEmpty ? DateTime.now() :
DateTime.parse(text.split("/").reversed.join("-")).add(Duration(days: n)))`, where `text`
belongs to the date before. -/
def prossimoInitialDate (z : LocalZone) (now : DateTime) (n : ℕ) (before field : DateTimeField) :
    Option DateTime :=
  match field.value with
  | some v => some v
  | none =>
    if before.text = "" then some now
    else before.parsed.bind fun t => z.add t (LocalZone.days n)

/-- The call of the next check's picker. Any exception is rendered as `none`. -/
def prossimoCall (z : LocalZone) (now : DateTime) (n : ℕ) (before field : DateTimeField) :
    Option PickerCall := do
  let firstDate ← firstDateFrom before
  let initialDate ← prossimoInitialDate z now n before field
  return ⟨firstDate, initialDate, DateTime.midnight lastDate⟩

namespace Add

/-- `onShowPicker` of `Data ultimo controllo`. -/
def ultimoPicker (now : DateTime) (f : Add) : PickerCall :=
  ⟨DateTime.midnight firstDate1900, f.dataUltimoControllo.value.getD now,
    DateTime.midnight lastDate⟩

/-- `onShowPicker` of `Data prossimo controllo`. -/
def prossimoPicker (z : LocalZone) (now : DateTime) (f : Add) : Option PickerCall :=
  prossimoCall z now (setPeriod f.periodo) f.dataUltimoControllo f.dataProssimoControllo

end Add

namespace ControlCheck

/-- `onShowPicker` of `Data controllo`, which takes its first date from its own text. -/
def controlloPicker (now : DateTime) (f : ControlCheck) : Option PickerCall := do
  let firstDate ← firstDateFrom f.dataControllo
  let initialDate ← match f.dataControllo.value with
    | some v => some v
    | none => if f.dataControllo.text = "" then some now else f.dataControllo.parsed
  return ⟨firstDate, initialDate, DateTime.midnight lastDate⟩

/-- `onShowPicker` of `Data prossimo`. -/
def prossimoPicker (z : LocalZone) (now : DateTime) (widget : Controllo) (f : ControlCheck) :
    Option PickerCall :=
  prossimoCall z now (setPeriod widget.periodo) f.dataControllo f.dataProssimo

end ControlCheck

namespace EditControl

/-- `onShowPicker` of `Data ultimo controllo`, which proposes the stored date. -/
def ultimoPicker (widget : Controllo) : PickerCall :=
  ⟨DateTime.midnight firstDate1900, widget.dataUltimoControllo, DateTime.midnight lastDate⟩

/-- `onShowPicker` of `Data prossimo controllo`, which proposes the stored date. -/
def prossimoPicker (widget : Controllo) (f : EditControl) : Option PickerCall := do
  let firstDate ← firstDateFrom f.dataUltimoControllo
  return ⟨firstDate, widget.dataProssimoControllo, DateTime.midnight lastDate⟩

end EditControl

/-! ## The day proposed for the next check -/

/-- The proposal over an entered date, where the next date is still empty. -/
theorem prossimoCall_proposed (z : LocalZone) (now : DateTime) {n : ℕ}
    {before field : DateTimeField} {c : CivilDate}
    (hbefore : before.parsed = some (DateTime.midnight c)) (hyear : c.year.natAbs < 10 ^ 5)
    (hn : n ≤ 365) (hfield : field.value = none) :
    ∃ t, prossimoCall z now n before field =
        some ⟨DateTime.midnight c, t, DateTime.midnight lastDate⟩ ∧
      t.date.toDays = z.dayAfter c n := by
  obtain ⟨t, hadd, hdate⟩ := LocalZone.add_days (LocalZone.inRange_add_days z hyear hn)
  refine ⟨t, ?_, hdate⟩
  simp [prossimoCall, prossimoInitialDate, firstDateFrom_of_parsed hbefore, hfield,
    text_ne_of_parsed hbefore, hbefore, hadd]

/-- **The proposal for the next check.** Over an entered day, the Add and the Check form
propose the day that is one period later exactly if the zone's offset after the period,
counted in days of 24 hours, is no smaller than at the midnight of the entered day, and
larger by less than a day. -/
theorem proposed_iff (z : LocalZone) (now : DateTime) {c : CivilDate}
    (hyear : c.year.natAbs < 10 ^ 5) :
    (∀ f : Add, f.dataUltimoControllo.parsed = some (DateTime.midnight c) →
      f.dataProssimoControllo.value = none → ∃ call, f.prossimoPicker z now = some call ∧
        (call.initialDate.date.toDays = c.toDays + setPeriod f.periodo ↔
          0 ≤ z.gain c (setPeriod f.periodo) ∧ z.gain c (setPeriod f.periodo) < 86400)) ∧
    ∀ (widget : Controllo) (f : ControlCheck),
      f.dataControllo.parsed = some (DateTime.midnight c) → f.dataProssimo.value = none →
      ∃ call, f.prossimoPicker z now widget = some call ∧
        (call.initialDate.date.toDays = c.toDays + setPeriod widget.periodo ↔
          0 ≤ z.gain c (setPeriod widget.periodo) ∧
            z.gain c (setPeriod widget.periodo) < 86400) := by
  constructor
  · intro f hbefore hfield
    obtain ⟨t, hcall, hdate⟩ :=
      prossimoCall_proposed z now hbefore hyear (setPeriod_bounds f.periodo).1 hfield
    exact ⟨_, hcall, by rw [hdate, LocalZone.dayAfter_eq_iff]⟩
  · intro widget f hbefore hfield
    obtain ⟨t, hcall, hdate⟩ :=
      prossimoCall_proposed z now hbefore hyear (setPeriod_bounds widget.periodo).1 hfield
    exact ⟨_, hcall, by rw [hdate, LocalZone.dayAfter_eq_iff]⟩

/-- The zone of Italy around 30 October 2022, when the clocks were turned back at three. -/
def ottobre2022 : LocalZone :=
  LocalZone.turnedBack
    ((⟨2022, 10, 30, by decide, by decide, by decide, by decide⟩ : CivilDate).toDays *
      microsPerDay + 10800000000)

/-- The form of a machine last checked on a day, with the next check still empty. -/
def checkedOn (s periodo : String) : Add :=
  { codice := "M1", periodo := periodo, dataUltimoControllo := .typed s }

/-- The year after 15 January 2022 is proposed exactly. -/
theorem proposed_iff_annuale : ∃ call,
    (checkedOn "15/01/2022" "Annuale").prossimoPicker (LocalZone.fixed 3600)
      (DateTime.midnight firstDate1900) = some call ∧
    call.initialDate.date.toDays =
      (⟨2022, 1, 15, by decide, by decide, by decide, by decide⟩ : CivilDate).toDays + 365 := by
  obtain ⟨call, hcall, hiff⟩ :=
    (proposed_iff (LocalZone.fixed 3600) (DateTime.midnight firstDate1900)
      (c := ⟨2022, 1, 15, by decide, by decide, by decide, by decide⟩) (by decide)).1
      (checkedOn "15/01/2022" "Annuale") (by decide +kernel) (by decide +kernel)
  exact ⟨call, hcall, hiff.mpr (by decide +kernel)⟩

/-- Thirty days after 1 October 2022 are 31 October 2022, and 30 October is proposed. -/
theorem proposed_ottobre :
    (((checkedOn "01/10/2022" "Mensile").prossimoPicker ottobre2022
        (DateTime.midnight firstDate1900)).map fun call => call.initialDate.isoDay) =
      some "2022-10-30" ∧
    (⟨2022, 10, 1, by decide, by decide, by decide, by decide⟩ : CivilDate).toDays +
        setPeriod "Mensile" =
      (⟨2022, 10, 31, by decide, by decide, by decide, by decide⟩ : CivilDate).toDays := by
  decide +kernel

/-! ## Fields that only their pickers have set -/

/-- The day of a field's value. -/
def day (f : DateTimeField) : Option CivilDate := f.value.map DateTime.date

/-- The pickers' bounds. -/
def InBounds (d : CivilDate) : Prop := firstDate1900 ≤ d ∧ d ≤ lastDate

/-- A field that has been cleared, or in which a day has been picked. -/
def pickedField : Option CivilDate → DateTimeField
  | none => .typed ""
  | some d => .picked (DateTime.midnight d)

/-- A field that only its picker has set. -/
def Picked (f : DateTimeField) : Prop := ∃ o, f = pickedField o ∧ ∀ d ∈ o, InBounds d

/-- A field that has not been used is as one that has been cleared. -/
theorem empty_eq_pickedField : DateTimeField.empty = pickedField none := by
  have hparse : DateFormat.parse "" = none := by decide +kernel
  rw [pickedField, DateTimeField.typed, hparse]
  rfl

/-- A field that has not been used has not been set otherwise. -/
theorem picked_empty : Picked .empty := ⟨none, empty_eq_pickedField, by simp⟩

/-- Whether an action on a date field uses the picker, or clears the field. -/
def DateAction.picks : DateAction → Bool
  | .type _ => false
  | .pick _ => true
  | .clear => true

/-- Days within the bounds have four-digit years. -/
theorem InBounds.year {d : CivilDate} (hd : InBounds d) : 1900 ≤ d.year ∧ d.year ≤ 2100 :=
  ⟨CivilDate.year_mono hd.1, CivilDate.year_mono hd.2⟩

/-- A picked day is the value of its field, and what a handler reads. -/
theorem pickedField_some {d : CivilDate} (hd : InBounds d) :
    (pickedField (some d)).value = some (DateTime.midnight d) ∧
      (pickedField (some d)).parsed = some (DateTime.midnight d) := by
  obtain ⟨hlow, hhigh⟩ := hd.year
  refine ⟨DateFormat.parse_format ⟨by omega, by omega⟩, ?_⟩
  exact DateTimeField.parsed_format (t := DateTime.midnight d) rfl
    (show 0 ≤ d.year by omega) (DateTime.inRange_midnight (c := d) ⟨by omega, by omega⟩)

/-- The day of a field that only its picker has set. -/
theorem day_pickedField {o : Option CivilDate} (ho : ∀ d ∈ o, InBounds d) :
    day (pickedField o) = o := by
  cases o with
  | none => decide +kernel
  | some d =>
    rw [day, (pickedField_some (ho d rfl)).1]
    rfl

/-- The lower bound of a picker over such a field. -/
theorem firstDateFrom_pickedField {o : Option CivilDate} (ho : ∀ d ∈ o, InBounds d) :
    firstDateFrom (pickedField o) = some (DateTime.midnight (o.getD firstDate1900)) := by
  cases o with
  | none => decide +kernel
  | some d => exact firstDateFrom_of_parsed (pickedField_some (ho d rfl)).2

/-- A day picked from a bound that is no earlier than 1900. -/
theorem pick_eq_some {first d : CivilDate} {f : DateTimeField} (hfirst : firstDate1900 ≤ first)
    (hact : dateAction (some first) (.pick d) = some f) :
    InBounds d ∧ f = pickedField (some d) ∧ first ≤ d := by
  simp only [dateAction, Option.ite_none_right_eq_some, Option.some.injEq] at hact
  obtain ⟨⟨hlow, hhigh⟩, rfl⟩ := hact
  exact ⟨⟨hfirst.trans hlow, hhigh⟩, rfl, hlow⟩

/-- A use of the picker leaves a field that only its picker has set. -/
theorem picked_of_dateAction {first : CivilDate} {a : DateAction} {f : DateTimeField}
    (hpicks : a.picks = true) (hact : dateAction (some first) a = some f)
    (hfirst : firstDate1900 ≤ first) : Picked f := by
  cases a with
  | type s => cases hpicks
  | clear =>
    cases hact
    exact ⟨none, rfl, by simp⟩
  | pick d =>
    obtain ⟨hd, rfl, _⟩ := pick_eq_some hfirst hact
    refine ⟨some d, rfl, ?_⟩
    rintro _ ⟨⟩
    exact hd

/-- The lower bound that such a field gives to a picker. -/
theorem Picked.exists_first {u : DateTimeField} (hu : Picked u) :
    ∃ first, (firstDateFrom u).map DateTime.date = some first ∧ firstDate1900 ≤ first ∧
      ∀ d ∈ day u, d = first := by
  obtain ⟨o, rfl, ho⟩ := hu
  rw [firstDateFrom_pickedField ho, day_pickedField ho]
  refine ⟨_, rfl, ?_, ?_⟩
  · cases o with
    | none => exact le_rfl
    | some d => exact (ho d rfl).1
  · rintro d rfl
    rfl

/-- A use of a picker that is bounded by such a field leaves one. -/
theorem Picked.dateAction {u v : DateTimeField} {a : DateAction} (hu : Picked u)
    (hpicks : a.picks = true) (hact : dateAction ((firstDateFrom u).map DateTime.date) a = some v) :
    Picked v := by
  obtain ⟨first, hfirst, hlow, _⟩ := hu.exists_first
  rw [hfirst] at hact
  exact picked_of_dateAction hpicks hact hlow

/-- When the picker of the next date opens: a picked next date is no earlier than the date
before, and a proposed one is no later than the last date. -/
def Fits (z : LocalZone) (n : ℕ) : Option CivilDate → Option CivilDate → Prop
  | some u, some p => u ≤ p
  | some u, none => z.dayAfter u n ≤ lastDate.toDays
  | none, _ => True

/-- A day picked from the bound given by the date before fits it. -/
theorem fits_of_pick {z : LocalZone} {n : ℕ} {u v : DateTimeField} {p : CivilDate} (hu : Picked u)
    (hact : dateAction ((firstDateFrom u).map DateTime.date) (.pick p) = some v) :
    Fits z n (day u) (day v) := by
  obtain ⟨first, hfirst, hlow, hday⟩ := hu.exists_first
  rw [hfirst] at hact
  obtain ⟨hp, rfl, hle⟩ := pick_eq_some hlow hact
  rw [day_pickedField (by rintro _ ⟨⟩; exact hp)]
  cases hu' : day u with
  | none => trivial
  | some d =>
    rw [← hday d hu'] at hle
    exact hle

/-- The picker of the next date opens exactly where the two dates fit. -/
theorem prossimoCall_asserted_iff {z : LocalZone} {now : DateTime} {n : ℕ}
    {u p : Option CivilDate} (hu : ∀ d ∈ u, InBounds d) (hp : ∀ d ∈ p, InBounds d)
    (hnow : InBounds now.date) (hn : n ≤ 365 ∧ (n = 0 ∨ 2 ≤ n)) :
    (∃ call, prossimoCall z now n (pickedField u) (pickedField p) = some call ∧ call.Asserted) ↔
      Fits z n u p := by
  have hfirst := firstDateFrom_pickedField hu
  cases p with
  | some p =>
    have hvalue := (pickedField_some (hp p rfl)).1
    have hp' : firstDate1900 ≤ p ∧ p ≤ lastDate := hp p rfl
    have hcall : prossimoCall z now n (pickedField u) (pickedField (some p)) =
        some ⟨DateTime.midnight (u.getD firstDate1900), DateTime.midnight p,
          DateTime.midnight lastDate⟩ := by
      simp [prossimoCall, hfirst, prossimoInitialDate, hvalue]
    rw [hcall]
    cases u with
    | none => simpa [PickerCall.Asserted, DateTime.midnight, Fits] using hp'
    | some u => simpa [PickerCall.Asserted, DateTime.midnight, Fits] using fun _ => hp'.2
  | none =>
    have hvalue : (pickedField none).value = none := by decide +kernel
    cases u with
    | none =>
      have htext : (pickedField none).text = "" := rfl
      have hcall : prossimoCall z now n (pickedField none) (pickedField none) =
          some ⟨DateTime.midnight firstDate1900, now, DateTime.midnight lastDate⟩ := by
        simp [prossimoCall, hfirst, prossimoInitialDate, hvalue, htext]
      have hnow' : firstDate1900 ≤ now.date ∧ now.date ≤ lastDate := hnow
      rw [hcall]
      simpa [PickerCall.Asserted, DateTime.midnight, Fits] using hnow'
    | some u =>
      have hu' := (hu u rfl).year
      obtain ⟨t, hcall, hdate⟩ := prossimoCall_proposed z now (n := n)
        (pickedField_some (hu u rfl)).2 (by omega) hn.1 hvalue
      rw [hcall]
      have hle := z.le_dayAfter u hn.2
      simp only [Option.some.injEq, exists_eq_left', PickerCall.Asserted, DateTime.midnight, Fits,
        CivilDate.le_iff_toDays_le, hdate]
      exact and_iff_right hle

/-! ## The form of a new machine -/

namespace Add

/-- Whether an action types no date. -/
def Action.picks : Action → Bool
  | .dataUltimo a => a.picks
  | .dataProssimo a => a.picks
  | _ => true

/-- An action that types no date. -/
def pickStep (f : Add) (a : Action) : Option Add := if a.picks then act f a else none

/-- Both pickers open. -/
def PickersOpen (z : LocalZone) (now : DateTime) (f : Add) : Prop :=
  (f.ultimoPicker now).Asserted ∧ ∃ call, f.prossimoPicker z now = some call ∧ call.Asserted

/-- Both dates have only been set by their pickers. -/
def BothPicked (f : Add) : Prop := Picked f.dataUltimoControllo ∧ Picked f.dataProssimoControllo

/-- An action leaves two dates that fit: a day picked as the last check fits the next one,
and what is proposed after clearing the next check or after changing the period fits. -/
def KeepsFit (z : LocalZone) (f : Add) : Action → Prop
  | .dataUltimo (.pick u) => Fits z (setPeriod f.periodo) (some u) (day f.dataProssimoControllo)
  | .dataProssimo .clear => Fits z (setPeriod f.periodo) (day f.dataUltimoControllo) none
  | .periodo s => Fits z (setPeriod s) (day f.dataUltimoControllo) (day f.dataProssimoControllo)
  | _ => True

/-- The pickers open where the two dates fit. -/
theorem pickersOpen_iff {z : LocalZone} {now : DateTime} {f : Add} (hf : f.BothPicked)
    (hnow : InBounds now.date) : f.PickersOpen z now ↔
      Fits z (setPeriod f.periodo) (day f.dataUltimoControllo) (day f.dataProssimoControllo) := by
  obtain ⟨⟨u, hu, hubounds⟩, p, hp, hpbounds⟩ := hf
  rw [PickersOpen, prossimoPicker, hu, hp, day_pickedField hubounds, day_pickedField hpbounds,
    prossimoCall_asserted_iff hubounds hpbounds hnow (setPeriod_bounds f.periodo)]
  refine and_iff_right ?_
  rw [ultimoPicker, hu]
  cases u with
  | none => exact hnow
  | some u =>
    rw [(pickedField_some (hubounds u rfl)).1]
    exact hubounds u rfl

/-- Actions that type no date leave the dates to their pickers. -/
theorem bothPicked_act {f f' : Add} {a : Action} (hf : f.BothPicked) (hpicks : a.picks = true)
    (hact : act f a = some f') : f'.BothPicked := by
  obtain ⟨hultimo, hprossimo⟩ := hf
  cases a with
  | dataUltimo a =>
    obtain ⟨d, hd, rfl⟩ := Option.map_eq_some_iff.mp hact
    exact ⟨picked_of_dateAction hpicks hd le_rfl, hprossimo⟩
  | dataProssimo a =>
    obtain ⟨d, hd, rfl⟩ := Option.map_eq_some_iff.mp hact
    exact ⟨hultimo, hultimo.dateAction hpicks hd⟩
  | _ =>
    obtain ⟨hu, hv⟩ := act_dates hact
    exact ⟨by rwa [hu], by rwa [hv]⟩

/-- A session that types no date leaves the dates to their pickers. -/
theorem bothPicked_of_session {c : String} {actions : List Action} {f : Add}
    (hsession : session c actions = some f) (hpicks : ∀ a ∈ actions, a.picks = true) :
    f.BothPicked := by
  obtain ⟨hrun, _⟩ := session_eq_some.mp hsession
  refine foldlM_invariant ?_ hrun ⟨picked_empty, picked_empty⟩
  intro g a g' ha hg hact
  exact bothPicked_act hg (hpicks a ha) hact

/-- A step keeps the pickers open exactly if it leaves dates that fit. -/
theorem pickersOpen_step_iff {z : LocalZone} {now : DateTime} {f f' : Add} {a : Action}
    (hnow : InBounds now.date) (hf : f.BothPicked) (hopen : f.PickersOpen z now)
    (hstep : pickStep f a = some f') : f'.PickersOpen z now ↔ f.KeepsFit z a := by
  simp only [pickStep, Option.ite_none_right_eq_some] at hstep
  obtain ⟨hpicks, hact⟩ := hstep
  rw [pickersOpen_iff (bothPicked_act hf hpicks hact) hnow]
  rw [pickersOpen_iff hf hnow] at hopen
  cases a with
  | dataUltimo a =>
    obtain ⟨d, hd, rfl⟩ := Option.map_eq_some_iff.mp hact
    cases a with
    | type s => cases hpicks
    | clear =>
      cases hd
      have hday : day (.typed "") = none := by decide +kernel
      simp [KeepsFit, hday, Fits]
    | pick u =>
      obtain ⟨hu, rfl, _⟩ := pick_eq_some le_rfl hd
      rw [day_pickedField (by rintro _ ⟨⟩; exact hu)]
      rfl
  | dataProssimo a =>
    obtain ⟨d, hd, rfl⟩ := Option.map_eq_some_iff.mp hact
    cases a with
    | type s => cases hpicks
    | clear =>
      cases hd
      have hday : day (.typed "") = none := by decide +kernel
      simp [KeepsFit, hday]
    | pick p => exact iff_of_true (fits_of_pick hf.1 hd) trivial
  | periodo s =>
    simp only [act, Option.ite_none_right_eq_some, Option.some.injEq] at hact
    obtain ⟨_, rfl⟩ := hact
    rfl
  | tipo s =>
    simp only [act, Option.ite_none_right_eq_some, Option.some.injEq] at hact
    obtain ⟨_, rfl⟩ := hact
    exact iff_of_true hopen trivial
  | _ =>
    cases hact
    exact iff_of_true hopen trivial

/-- **The pickers of the Add form.** In every run of actions that type no date, both
pickers open in every state exactly if the clock shows a day within the pickers' bounds
and every action leaves dates that fit. -/
theorem always_pickersOpen_iff (z : LocalZone) (now : DateTime) {c : String}
    {hist : List (Add × Action)} {f : Add} (hrun : Run pickStep (initState c) hist f) :
    Always (PickersOpen z now) hist f ↔ InBounds now.date ∧ Steps (KeepsFit z) hist := by
  have hstart : (initState c).BothPicked := ⟨picked_empty, picked_empty⟩
  refine hrun.always_iff_and BothPicked hstart ?_ ?_ ?_
  · intro f a f' hf hstep
    simp only [pickStep, Option.ite_none_right_eq_some] at hstep
    exact bothPicked_act hf hstep.1 hstep.2
  · constructor
    · intro hopen
      exact hopen.1
    · intro hnow
      exact (pickersOpen_iff hstart hnow).mpr trivial
  · intro hnow f a f' hf hopen hstep
    exact pickersOpen_step_iff hnow hf hopen hstep

end Add

/-! ## The form of a check -/

namespace ControlCheck

/-- Whether an action types no date. -/
def Action.picks : Action → Bool
  | .dataControllo a => a.picks
  | .dataProssimo a => a.picks
  | _ => true

/-- An action that types no date. -/
def pickStep (f : ControlCheck) (a : Action) : Option ControlCheck :=
  if a.picks then act f a else none

/-- Both pickers open. -/
def PickersOpen (z : LocalZone) (now : DateTime) (widget : Controllo) (f : ControlCheck) : Prop :=
  (∃ call, f.controlloPicker now = some call ∧ call.Asserted) ∧
    ∃ call, f.prossimoPicker z now widget = some call ∧ call.Asserted

/-- Both dates have only been set by their pickers. -/
def BothPicked (f : ControlCheck) : Prop := Picked f.dataControllo ∧ Picked f.dataProssimo

/-- An action leaves two dates that fit: a day picked as the check fits the next one, and
what is proposed after clearing the next one fits. -/
def KeepsFit (z : LocalZone) (widget : Controllo) (f : ControlCheck) : Action → Prop
  | .dataControllo (.pick u) => Fits z (setPeriod widget.periodo) (some u) (day f.dataProssimo)
  | .dataProssimo .clear => Fits z (setPeriod widget.periodo) (day f.dataControllo) none
  | _ => True

/-- The pickers open where the two dates fit. -/
theorem pickersOpen_iff {z : LocalZone} {now : DateTime} {widget : Controllo} {f : ControlCheck}
    (hf : f.BothPicked) (hnow : InBounds now.date) : f.PickersOpen z now widget ↔
      Fits z (setPeriod widget.periodo) (day f.dataControllo) (day f.dataProssimo) := by
  obtain ⟨⟨u, hu, hubounds⟩, p, hp, hpbounds⟩ := hf
  rw [PickersOpen, prossimoPicker, hu, hp, day_pickedField hubounds, day_pickedField hpbounds,
    prossimoCall_asserted_iff hubounds hpbounds hnow (setPeriod_bounds widget.periodo)]
  refine and_iff_right ?_
  have hfirst := firstDateFrom_pickedField hubounds
  cases u with
  | none =>
    have hvalue : (pickedField none).value = none := by decide +kernel
    have htext : (pickedField none).text = "" := rfl
    refine ⟨⟨DateTime.midnight firstDate1900, now, DateTime.midnight lastDate⟩, ?_, hnow⟩
    simp [controlloPicker, hu, hfirst, hvalue, htext]
  | some u =>
    have hvalue := (pickedField_some (hubounds u rfl)).1
    refine ⟨⟨DateTime.midnight u, DateTime.midnight u, DateTime.midnight lastDate⟩, ?_,
      le_rfl, (hubounds u rfl).2⟩
    simp [controlloPicker, hu, hfirst, hvalue]

/-- Actions that type no date leave the dates to their pickers. -/
theorem bothPicked_act {f f' : ControlCheck} {a : Action} (hf : f.BothPicked)
    (hpicks : a.picks = true) (hact : act f a = some f') : f'.BothPicked := by
  obtain ⟨hcontrollo, hprossimo⟩ := hf
  cases a with
  | segnalazione s =>
    cases hact
    exact ⟨hcontrollo, hprossimo⟩
  | dataControllo a =>
    obtain ⟨d, hd, rfl⟩ := Option.map_eq_some_iff.mp hact
    exact ⟨hcontrollo.dateAction hpicks hd, hprossimo⟩
  | dataProssimo a =>
    obtain ⟨d, hd, rfl⟩ := Option.map_eq_some_iff.mp hact
    exact ⟨hcontrollo, hcontrollo.dateAction hpicks hd⟩

/-- A session that types no date leaves the dates to their pickers. -/
theorem bothPicked_of_session {actions : List Action} {f : ControlCheck}
    (hsession : session actions = some f) (hpicks : ∀ a ∈ actions, a.picks = true) :
    f.BothPicked := by
  obtain ⟨hrun, _⟩ := session_eq_some.mp hsession
  refine foldlM_invariant ?_ hrun ⟨picked_empty, picked_empty⟩
  intro g a g' ha hg hact
  exact bothPicked_act hg (hpicks a ha) hact

/-- A step keeps the pickers open exactly if it leaves dates that fit. -/
theorem pickersOpen_step_iff {z : LocalZone} {now : DateTime} {widget : Controllo}
    {f f' : ControlCheck} {a : Action} (hnow : InBounds now.date) (hf : f.BothPicked)
    (hopen : f.PickersOpen z now widget) (hstep : pickStep f a = some f') :
    f'.PickersOpen z now widget ↔ f.KeepsFit z widget a := by
  simp only [pickStep, Option.ite_none_right_eq_some] at hstep
  obtain ⟨hpicks, hact⟩ := hstep
  rw [pickersOpen_iff (bothPicked_act hf hpicks hact) hnow]
  rw [pickersOpen_iff hf hnow] at hopen
  cases a with
  | segnalazione s =>
    cases hact
    exact iff_of_true hopen trivial
  | dataControllo a =>
    obtain ⟨d, hd, rfl⟩ := Option.map_eq_some_iff.mp hact
    cases a with
    | type s => cases hpicks
    | clear =>
      cases hd
      have hday : day (.typed "") = none := by decide +kernel
      simp [KeepsFit, hday, Fits]
    | pick u =>
      obtain ⟨first, hfirst, hlow, _⟩ := hf.1.exists_first
      rw [hfirst] at hd
      obtain ⟨hu, rfl, _⟩ := pick_eq_some hlow hd
      rw [day_pickedField (by rintro _ ⟨⟩; exact hu)]
      rfl
  | dataProssimo a =>
    obtain ⟨d, hd, rfl⟩ := Option.map_eq_some_iff.mp hact
    cases a with
    | type s => cases hpicks
    | clear =>
      cases hd
      have hday : day (.typed "") = none := by decide +kernel
      simp [KeepsFit, hday]
    | pick p => exact iff_of_true (fits_of_pick hf.1 hd) trivial

/-- **The pickers of the check form.** In every run of actions that type no date, both
pickers open in every state exactly if the clock shows a day within the pickers' bounds
and every action leaves dates that fit. -/
theorem always_pickersOpen_iff (z : LocalZone) (now : DateTime) (widget : Controllo)
    {hist : List (ControlCheck × Action)} {f : ControlCheck}
    (hrun : Run pickStep initState hist f) :
    Always (PickersOpen z now widget) hist f ↔
      InBounds now.date ∧ Steps (KeepsFit z widget) hist := by
  have hstart : initState.BothPicked := ⟨picked_empty, picked_empty⟩
  refine hrun.always_iff_and BothPicked hstart ?_ ?_ ?_
  · intro f a f' hf hstep
    simp only [pickStep, Option.ite_none_right_eq_some] at hstep
    exact bothPicked_act hf hstep.1 hstep.2
  · constructor
    · rintro ⟨⟨call, hcall, hasserted⟩, _⟩
      have hnow : initState.controlloPicker now =
          some ⟨DateTime.midnight firstDate1900, now, DateTime.midnight lastDate⟩ := by
        have hfirst := firstDateFrom_pickedField (o := none) (by simp)
        rw [← empty_eq_pickedField] at hfirst
        rw [controlloPicker, show initState.dataControllo = .empty from rfl, hfirst]
        rfl
      rw [hnow] at hcall
      cases hcall
      exact hasserted
    · intro hnow
      exact (pickersOpen_iff hstart hnow).mpr trivial
  · intro hnow f a f' hf hopen hstep
    exact pickersOpen_step_iff hnow hf hopen hstep

end ControlCheck

/-! ## The form of an edit -/

namespace EditControl

/-- Whether an action types no date. -/
def Action.picks : Action → Bool
  | .dataUltimo a => a.picks
  | .dataProssimo a => a.picks
  | _ => true

/-- Whether an action calls `setState`, so that the form is built again. -/
def Action.rebuilds : Action → Bool
  | .tipo _ => true
  | .periodo _ => true
  | .file _ => true
  | _ => false

/-- The form on the screen, and whether it could be built: `build` parses both texts for
the initial values of the date fields. -/
structure Shown where
  /-- The form. -/
  form : EditControl
  /-- The last build did not throw. -/
  built : Bool

/-- The form that is opened on a record. -/
def Shown.start (widget : Controllo) : Option Shown := (initState widget).map fun f => ⟨f, true⟩

/-- An action that types no date, on a form that is shown. -/
def pickStep (s : Shown) (a : Action) : Option Shown :=
  if s.built = true ∧ a.picks = true then
    (act s.form a).map fun f => ⟨f, !a.rebuilds ||
      (f.dataUltimoControllo.parsed.isSome && f.dataProssimoControllo.parsed.isSome)⟩
  else none

/-- The form is shown, and both pickers open. -/
def PickersOpen (widget : Controllo) (s : Shown) : Prop :=
  s.built = true ∧ (ultimoPicker widget).Asserted ∧
    ∃ call, s.form.prossimoPicker widget = some call ∧ call.Asserted

/-- Both dates of a record lie within the pickers' bounds. -/
def Bounded (c : Controllo) : Prop :=
  InBounds c.dataUltimoControllo.date ∧ InBounds c.dataProssimoControllo.date

/-- Both dates have only been set by their pickers. -/
def BothPicked (f : EditControl) : Prop :=
  Picked f.dataUltimoControllo ∧ Picked f.dataProssimoControllo

/-- An action leaves a last check that is no later than the stored next check, and the
form is not built again over a cleared date. -/
def KeepsFit (widget : Controllo) (s : Shown) : Action → Prop
  | .dataUltimo (.pick u) => u ≤ widget.dataProssimoControllo.date
  | .dataUltimo _ => True
  | .dataProssimo _ => True
  | .descrizione _ => True
  | _ => (day s.form.dataUltimoControllo).isSome ∧ (day s.form.dataProssimoControllo).isSome

/-- The pickers of a form over a bounded record open where the form is shown and its last
check is no later than the stored next check. -/
theorem pickersOpen_iff {widget : Controllo} {s : Shown} (hwidget : Bounded widget)
    (hs : s.form.BothPicked) : PickersOpen widget s ↔ s.built = true ∧
      ∀ u ∈ day s.form.dataUltimoControllo, u ≤ widget.dataProssimoControllo.date := by
  obtain ⟨⟨u, hu, hubounds⟩, _⟩ := hs
  have hcall : s.form.prossimoPicker widget = some ⟨DateTime.midnight (u.getD firstDate1900),
      widget.dataProssimoControllo, DateTime.midnight lastDate⟩ := by
    rw [prossimoPicker, hu, firstDateFrom_pickedField hubounds]
    rfl
  rw [PickersOpen, hcall, hu, day_pickedField hubounds]
  refine and_congr_right fun _ => ?_
  constructor
  · rintro ⟨_, call, ⟨⟩, hlow, _⟩ u rfl
    exact hlow
  · intro hle
    refine ⟨hwidget.1, _, rfl, ?_, hwidget.2.2⟩
    cases u with
    | none => exact hwidget.2.1
    | some u => exact hle u rfl

/-- Actions that type no date leave the dates to their pickers. -/
theorem bothPicked_act {f f' : EditControl} {a : Action} (hf : f.BothPicked)
    (hpicks : a.picks = true) (hact : act f a = some f') : f'.BothPicked := by
  obtain ⟨hultimo, hprossimo⟩ := hf
  cases a with
  | dataUltimo a =>
    obtain ⟨d, hd, rfl⟩ := Option.map_eq_some_iff.mp hact
    exact ⟨picked_of_dateAction hpicks hd le_rfl, hprossimo⟩
  | dataProssimo a =>
    obtain ⟨d, hd, rfl⟩ := Option.map_eq_some_iff.mp hact
    exact ⟨hultimo, hultimo.dateAction hpicks hd⟩
  | _ =>
    obtain ⟨hu, hv⟩ := act_dates hact
    exact ⟨by rwa [hu], by rwa [hv]⟩

/-- A step is an action on the form shown, which is built again if the action says so. -/
theorem pickStep_eq_some {s t : Shown} {a : Action} (hstep : pickStep s a = some t) :
    s.built = true ∧ a.picks = true ∧ act s.form a = some t.form ∧
      (t.built = true ↔ a.rebuilds = true → (t.form.dataUltimoControllo.parsed.isSome ∧
        t.form.dataProssimoControllo.parsed.isSome)) := by
  simp only [pickStep, Option.ite_none_right_eq_some, Option.map_eq_some_iff] at hstep
  obtain ⟨⟨hbuilt, hpicks⟩, f, hact, rfl⟩ := hstep
  refine ⟨hbuilt, hpicks, hact, ?_⟩
  cases a.rebuilds <;> simp

/-- A field that only its picker has set is parsed exactly if a day is picked. -/
theorem Picked.parsed_isSome {f : DateTimeField} (hf : Picked f) :
    f.parsed.isSome ↔ (day f).isSome := by
  obtain ⟨o, rfl, ho⟩ := hf
  rw [day_pickedField ho]
  cases o with
  | none => decide +kernel
  | some d => simp [(pickedField_some (ho d rfl)).2]

/-- A step keeps the pickers open exactly if it leaves a last check that is no later than
the stored next check, and does not build the form over a cleared date. -/
theorem pickersOpen_step_iff {widget : Controllo} {s t : Shown} {a : Action}
    (hwidget : Bounded widget) (hs : s.form.BothPicked) (hopen : PickersOpen widget s)
    (hstep : pickStep s a = some t) : PickersOpen widget t ↔ KeepsFit widget s a := by
  obtain ⟨_, hpicks, hact, hbuilt⟩ := pickStep_eq_some hstep
  have ht := bothPicked_act hs hpicks hact
  rw [pickersOpen_iff hwidget hs] at hopen
  rw [pickersOpen_iff hwidget ht, hbuilt]
  cases a with
  | dataUltimo a =>
    obtain ⟨d, hd, hform⟩ := Option.map_eq_some_iff.mp hact
    rw [← hform]
    cases a with
    | type s => cases hpicks
    | clear =>
      cases hd
      have hday : day (.typed "") = none := by decide +kernel
      simp [KeepsFit, hday, Action.rebuilds]
    | pick u =>
      obtain ⟨hu, rfl, _⟩ := pick_eq_some le_rfl hd
      dsimp only
      rw [day_pickedField (by rintro _ ⟨⟩; exact hu)]
      simp [KeepsFit, Action.rebuilds]
  | dataProssimo a =>
    obtain ⟨hu, _⟩ := act_dates hact
    rw [hu]
    simpa [KeepsFit, Action.rebuilds] using hopen.2
  | descrizione d =>
    obtain ⟨hu, _⟩ := act_dates hact
    rw [hu]
    simpa [KeepsFit, Action.rebuilds] using hopen.2
  | _ =>
    obtain ⟨hu, hv⟩ := act_dates hact
    rw [hu, hv, Picked.parsed_isSome hs.1, Picked.parsed_isSome hs.2]
    simpa [KeepsFit, Action.rebuilds] using fun _ _ => hopen.2

/-- The field over a bounded date is as if the day had been picked. -/
theorem dateField_eq {t : DateTime} (ht : InBounds t.date) :
    dateField t = some (pickedField (some t.date)) := by
  obtain ⟨hlow, hhigh⟩ := ht.year
  rw [dateField_eq_some ⟨by omega, by omega⟩, ← (pickedField_some ht).1]
  rfl

/-- The form opened on a bounded record shows the days of the record. -/
theorem exists_start {widget : Controllo} (hwidget : Bounded widget) :
    ∃ s, Shown.start widget = some s ∧ s.form.BothPicked ∧ s.built = true ∧
      day s.form.dataUltimoControllo = some widget.dataUltimoControllo.date := by
  have hultimo := dateField_eq hwidget.1
  have hprossimo := dateField_eq hwidget.2
  refine ⟨_, by rw [Shown.start, initState, hultimo, hprossimo]; rfl, ⟨?_, ?_⟩, rfl, ?_⟩
  · exact ⟨some widget.dataUltimoControllo.date, rfl, by rintro _ ⟨⟩; exact hwidget.1⟩
  · exact ⟨some widget.dataProssimoControllo.date, rfl, by rintro _ ⟨⟩; exact hwidget.2⟩
  · exact day_pickedField (by rintro _ ⟨⟩; exact hwidget.1)

/-- A session on a bounded record that types no date leaves the dates to their pickers. -/
theorem bothPicked_of_session {widget : Controllo} {actions : List Action} {f : EditControl}
    (hwidget : Bounded widget) (hsession : session widget actions = some f)
    (hpicks : ∀ a ∈ actions, a.picks = true) : f.BothPicked := by
  obtain ⟨f₀, hinit, hrun, _⟩ := session_eq_some.mp hsession
  obtain ⟨s₀, hstart, hpicked, _⟩ := exists_start hwidget
  rw [Shown.start, hinit] at hstart
  cases hstart
  refine foldlM_invariant ?_ hrun hpicked
  intro g a g' ha hg hact
  exact bothPicked_act hg (hpicks a ha) hact

/-- **The pickers of the edit form.** The form can be opened on every bounded record. In
every run of actions that type no date, the form is shown and both pickers open in every
state exactly if the record's last check is no later than its next one, no later day is
picked as the last check than the stored next check, and the form is not built again
over a cleared date. -/
theorem always_pickersOpen_iff {widget : Controllo} (hwidget : Bounded widget) :
    ∃ s₀, Shown.start widget = some s₀ ∧
      ∀ hist s, Run pickStep s₀ hist s → (Always (PickersOpen widget) hist s ↔
        widget.dataUltimoControllo.date ≤ widget.dataProssimoControllo.date ∧
          Steps (KeepsFit widget) hist) := by
  obtain ⟨s₀, hstart, hpicked, hbuilt, hday⟩ := exists_start hwidget
  refine ⟨s₀, hstart, ?_⟩
  intro hist s hrun
  refine hrun.always_iff_and (fun s => s.form.BothPicked) hpicked ?_ ?_ ?_
  · intro s a t hs hstep
    obtain ⟨_, hpicks, hact, _⟩ := pickStep_eq_some hstep
    exact bothPicked_act hs hpicks hact
  · rw [pickersOpen_iff hwidget hpicked, hday]
    simp [hbuilt]
  · intro _ s a t hs hopen hstep
    exact pickersOpen_step_iff hwidget hs hopen hstep

end EditControl

end EthosApp
