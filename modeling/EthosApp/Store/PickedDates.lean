import EthosApp.Screens.Pickers
import EthosApp.Store.Codec
import EthosApp.Store.Confirms

/-!
# Machines whose dates were picked

If no date is ever typed, every stored date lies within the bounds of the pickers. The
forms that are opened on such machines are those for which it is known when their
pickers open.
-/

namespace EthosApp

open Dart Gregorian Firestore DocStore Runs

/-- What a handler reads from a field that only its picker has set lies within the bounds. -/
theorem Picked.inBounds {f : DateTimeField} {t : DateTime} (hf : Picked f)
    (hparsed : f.parsed = some t) : InBounds t.date := by
  obtain ⟨o, rfl, ho⟩ := hf
  cases o with
  | none =>
    have hnone : (pickedField none).parsed = none := by decide +kernel
    rw [hnone] at hparsed
    cases hparsed
  | some d =>
    rw [(pickedField_some (ho d rfl)).2] at hparsed
    cases hparsed
    exact ho d rfl

/-- Dates within the bounds have four-digit years. -/
theorem EditControl.Bounded.fourDigitYears {c : Controllo} (hc : EditControl.Bounded c) :
    c.FourDigitYears := by
  have hultimo := hc.1.year
  have hprossimo := hc.2.year
  exact ⟨⟨by omega, by omega⟩, by omega, by omega⟩

/-- Decoding a document over which a bounded record was written gives a bounded record. -/
theorem EditControl.Bounded.decoded {c c' : Controllo} (hc : EditControl.Bounded c) {d : Doc}
    {h : Hour} (hdecode : Controllo.fromSnapshot (overwrite d c.toJson) h.text = some c') :
    EditControl.Bounded c' := by
  rw [Controllo.fromSnapshot_overwrite d h hc.fourDigitYears] at hdecode
  obtain ⟨scheda, _, rfl⟩ := Option.map_eq_some_iff.mp hdecode
  exact hc

namespace Confirms

/-- Whether no date is typed in a confirmed form. -/
def Action.picks : Action → Bool
  | .add _ actions _ _ => actions.all Add.Action.picks
  | .edit _ actions _ _ => actions.all EditControl.Action.picks
  | .check _ actions _ _ => actions.all ControlCheck.Action.picks
  | _ => true

/-- A step without typed dates stores a bounded record. -/
theorem written_bounded {s : State} {a : Action} {p : Path} {c : Controllo}
    (hs : Records EditControl.Bounded s) (hpicks : a.picks = true)
    (hwritten : written s a = some (p, c)) : EditControl.Bounded c := by
  cases a with
  | read p hour => cases hwritten
  | delete c oDoc oFile => cases hwritten
  | add code actions oSet oPut =>
    obtain ⟨f, hf, hwrites⟩ := written_add.mp hwritten
    obtain ⟨hform, _⟩ := Add.writes_eq_some.mp hwrites
    obtain ⟨hu, hv, _⟩ := Add.controllo_eq_some.mp hform
    obtain ⟨hultimo, hprossimo⟩ := Add.bothPicked_of_session hf (List.all_eq_true.mp hpicks)
    exact ⟨hultimo.inBounds hu, hprossimo.inBounds hv⟩
  | edit i actions oUpdate oPut =>
    obtain ⟨r, f, hr, hf, hwrites, _⟩ := written_edit.mp hwritten
    obtain ⟨hform, _⟩ := EditControl.writes_eq_some.mp hwrites
    obtain ⟨hu, hv, _⟩ := EditControl.controllo_eq_some.mp hform
    have hwidget := hs.readings r (List.mem_of_getElem? hr)
    obtain ⟨hultimo, hprossimo⟩ :=
      EditControl.bothPicked_of_session hwidget hf (List.all_eq_true.mp hpicks)
    exact ⟨hultimo.inBounds hu, hprossimo.inBounds hv⟩
  | check i actions oRegistro oUpdate =>
    obtain ⟨r, f, hr, hf, hwrites, _⟩ := written_check.mp hwritten
    obtain ⟨hu, hv, _⟩ := ControlCheck.writes_eq_some.mp hwrites
    obtain ⟨hcontrollo, hprossimo⟩ :=
      ControlCheck.bothPicked_of_session hf (List.all_eq_true.mp hpicks)
    exact ⟨hcontrollo.inBounds hu, hprossimo.inBounds hv⟩

/-- Where no date is ever typed, all records are bounded. -/
theorem bounded_of_picks {zone : Zone} {hist : List (State × Action)} {s : State}
    (hrun : Run (step zone) State.start hist s) (hpicks : Steps (fun _ a => a.picks = true) hist) :
    Records EditControl.Bounded s := by
  refine (hrun.always_of_steps hpicks (records_start EditControl.Bounded) ?_).1
  intro s a t hs hpick hstep
  refine records_step hs hstep ?_
  intro p c d hsome h c' hdecode
  exact (written_bounded hs hpick hsome).decoded hdecode

/-- **When the date pickers open.** In every run of one of the forms without typed dates,
for Edit and Check on any record of a store in which no date was ever typed, both pickers
open in every state exactly if the clock shows a day within the bounds (Add and Check),
or the record has ordered dates (Edit), and every action leaves dates that fit. -/
theorem pickers_open_iff (z : LocalZone) (now : DateTime) :
    (∀ c hist f, Run Add.pickStep (Add.initState c) hist f →
      (Always (Add.PickersOpen z now) hist f ↔
        InBounds now.date ∧ Steps (Add.KeepsFit z) hist)) ∧
    ∀ zone hist s, Run (step zone) State.start hist s → Steps (fun _ a => a.picks = true) hist →
      ∀ r ∈ s.readings,
        (∀ hist f, Run ControlCheck.pickStep ControlCheck.initState hist f →
          (Always (ControlCheck.PickersOpen z now r.controllo) hist f ↔
            InBounds now.date ∧ Steps (ControlCheck.KeepsFit z r.controllo) hist)) ∧
        ∃ s₀, EditControl.Shown.start r.controllo = some s₀ ∧
          ∀ hist s, Run EditControl.pickStep s₀ hist s →
            (Always (EditControl.PickersOpen r.controllo) hist s ↔
              r.controllo.dataUltimoControllo.date ≤ r.controllo.dataProssimoControllo.date ∧
                Steps (EditControl.KeepsFit r.controllo) hist) := by
  constructor
  · intro c hist f hrun
    exact Add.always_pickersOpen_iff z now hrun
  · intro zone hist s hrun hpicks r hr
    constructor
    · intro hist f hrun
      exact ControlCheck.always_pickersOpen_iff z now r.controllo hrun
    · exact EditControl.always_pickersOpen_iff ((bounded_of_picks hrun hpicks).readings r hr)

/-- A day of January. -/
def gennaio (year : ℤ) (day : ℕ) : CivilDate :=
  CivilDate.normalize year 1 day

/-- A machine is added with picked dates and read. -/
def addPicked : List Action :=
  [.add "M1" [.descrizione "Pulizia", .dataUltimo (.pick (gennaio 2022 15)),
      .dataProssimo (.pick (gennaio 2023 15)), .file ⟨"/foto/scheda.pdf"⟩]
      .success .success,
    .read ["M1"] Hour.zero]

/-- The run that takes these actions. -/
def runPicked : Option (List (State × Action) × State) :=
  exec (step (Zone.fixed 0 Zone.zero_lt_day)) [] State.start addPicked

/-- The pickers open when the machine is opened for editing. -/
theorem pickers_open_iff_M1 : ∀ r ∈ (runPicked.get (by decide +kernel)).2.readings,
    ∃ s₀, EditControl.Shown.start r.controllo = some s₀ ∧
      Always (EditControl.PickersOpen r.controllo)
        ([] : List (EditControl.Shown × EditControl.Action)) s₀ := by
  intro r hr
  obtain ⟨_, s₀, hstart, hiff⟩ :=
    (pickers_open_iff (LocalZone.fixed 0) (DateTime.midnight (gennaio 2023 1))).2
      (Zone.fixed 0) _ _ (run_get (by decide +kernel)) (by unfold Steps; decide +kernel) r hr
  have hordered : ∀ r ∈ (runPicked.get (by decide +kernel)).2.readings,
      r.controllo.dataUltimoControllo.date ≤ r.controllo.dataProssimoControllo.date := by
    decide +kernel
  exact ⟨s₀, hstart, (hiff [] s₀ .nil).mpr ⟨hordered r hr, by simp [Steps]⟩⟩

/-- In the Add form, the next check is picked first and then a later last check, after
which the picker of the next check is called with a first date after the initial one. In
the Edit form, a date is cleared and then the period is chosen, and the form cannot be
built again. -/
theorem pickers_fail :
    (([.dataProssimo (.pick (gennaio 2020 15)),
        .dataUltimo (.pick (gennaio 2022 15))].foldlM Add.pickStep
        (Add.initState "M1")).bind fun f => (f.prossimoPicker (LocalZone.fixed 0)
          (DateTime.midnight (gennaio 2023 1))).map fun call => decide call.Asserted) =
      some false ∧
    (runPicked.map fun r => r.2.readings.map fun r =>
      ((EditControl.Shown.start r.controllo).bind fun s =>
        [.dataUltimo .clear, .periodo "Annuale"].foldlM EditControl.pickStep s).map
          EditControl.Shown.built) = some [some false] := by
  decide +kernel

end Confirms

end EthosApp
