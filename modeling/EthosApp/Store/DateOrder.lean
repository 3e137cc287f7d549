import EthosApp.Store.Codec
import EthosApp.Store.Confirms

/-!
# The order of the last and the next check

The forms bound the date of the next check only in its picker, and only by what the
first field held when the picker was opened. Nothing compares the two dates when a form
is confirmed, so that stored machines have ordered dates exactly as long as every
confirmed form does.
-/

namespace EthosApp

open Dart Gregorian Firestore DocStore Runs Confirms

namespace Controllo

/-- A stored machine whose last check is not after its next one. -/
def Ordered (d : Doc) : Prop :=
  ∀ c, fromSnapshot d = some c → c.dataUltimoControllo.date ≤ c.dataProssimoControllo.date

end Controllo

/-- The days kept of two days are in order, where both are kept. -/
def KeptInOrder (c d : CivilDate) : Prop :=
  ∀ c' ∈ DateTime.keptDay c, ∀ d' ∈ DateTime.keptDay d, c' ≤ d'

/-- For years between 0 and 9999 the kept days are the days themselves. -/
theorem keptInOrder_iff {c d : CivilDate} (hc : 0 ≤ c.year ∧ c.year ≤ 9999)
    (hd : 0 ≤ d.year ∧ d.year ≤ 9999) : KeptInOrder c d ↔ c ≤ d := by
  simp [KeptInOrder, DateTime.keptDay_eq hc, DateTime.keptDay_eq hd]

/-- A machine over which a record was written has ordered dates exactly when the kept
days of the record are in order, provided that its sheet can be read. -/
theorem Controllo.ordered_overwrite {d : Doc} {c : Controllo}
    (hscheda : (schedaOf d c.cod).isSome)
    (hultimo : c.dataUltimoControllo.date.year.natAbs < 10 ^ 6)
    (hprossimo : c.dataProssimoControllo.date.year.natAbs < 10 ^ 6) :
    Ordered (overwrite d c.toJson) ↔
      KeptInOrder c.dataUltimoControllo.date c.dataProssimoControllo.date := by
  obtain ⟨scheda, hscheda⟩ := Option.isSome_iff_exists.mp hscheda
  unfold Ordered KeptInOrder
  rw [← DateTime.parse_isoDay_hour_date Hour.zero hultimo,
    ← DateTime.parse_isoDay_hour_date Hour.zero hprossimo, zero_text, fromSnapshot_overwrite_eq]
  cases hu : DateTime.parse (c.dataUltimoControllo.isoDay ++ " " ++ "00:00:00") with
  | none => simp
  | some u =>
    cases hv : DateTime.parse (c.dataProssimoControllo.isoDay ++ " " ++ "00:00:00") with
    | none => simp
    | some v => simp [hscheda]

namespace Confirms

/-- The app never writes the key under which it looks for the sheet. -/
def NoSheetKey (s : State) : Prop :=
  AllDocs (fun _ d => d "schedaControllo" = none) s.backend.controlli

/-- No step writes the key. -/
theorem noSheetKey_step {zone : Zone} {s t : State} {a : Action} (hbefore : NoSheetKey s)
    (hstep : step zone s a = some t) : NoSheetKey t := by
  refine allDocs_step hbefore hstep ?_
  rintro p c d _ hold
  rw [Controllo.overwrite_schedaControllo]
  rcases hold with rfl | hold
  · rfl
  · exact hold

/-- If the step stores a record, the days that its handler parses from the texts of the two
date fields are kept in order. -/
def StoresInOrder (s : State) (a : Action) : Prop :=
  (written s a).isSome → ∀ w ∈ fields s a, ∀ u ∈ w.1.parsed, ∀ v ∈ w.2.parsed,
    KeptInOrder u.date v.date

/-- What the actions of a confirmed form do to its dates. -/
def Action.dates : Action → List DatesAction
  | .add _ actions _ _ => actions.map Add.Action.dates
  | .edit _ actions _ _ => actions.map EditControl.Action.dates
  | .check _ actions _ _ => actions.map ControlCheck.Action.dates
  | _ => []

/-- If the step stores a record, the next check was picked in the calendar after the last check
had its final value, which is not before year zero. -/
def PicksLast (s : State) (a : Action) : Prop :=
  (written s a).isSome → pickedLast a.dates ∧
    ∀ w ∈ fields s a, ∀ u ∈ w.1.parsed, 0 ≤ u.date.year

instance (s : State) (a : Action) : Decidable (PicksLast s a) :=
  inferInstanceAs (Decidable (_ → _ ∧ ∀ _ ∈ _, ∀ _ ∈ _, _))

/-- A form whose next check was picked last holds a day picked from the bound. -/
theorem pickedFrom_of_fields {s : State} {a : Action} {u v : DateTimeField}
    (hfields : fields s a = some (u, v)) (hpicked : pickedLast a.dates = true) :
    PickedFrom u v := by
  cases a with
  | read p hour => cases hfields
  | delete c oDoc oFile => cases hfields
  | add code actions oSet oPut =>
    obtain ⟨f, hf, heq⟩ := Option.map_eq_some_iff.mp hfields
    cases heq
    exact Add.pickedFrom_of_session hf hpicked
  | edit i actions oUpdate oPut =>
    simp only [fields, Option.bind_eq_bind, Option.bind_eq_some_iff, Option.pure_def,
      Option.some.injEq, Prod.mk.injEq] at hfields
    obtain ⟨r, _, f, hf, rfl, rfl⟩ := hfields
    exact EditControl.pickedFrom_of_session hf hpicked
  | check i actions oRegistro oUpdate =>
    obtain ⟨f, hf, heq⟩ := Option.map_eq_some_iff.mp hfields
    cases heq
    exact ControlCheck.pickedFrom_of_session hf hpicked

/-- A record whose next check was picked last has ordered dates. -/
theorem storesInOrder_of_picksLast {s : State} {a : Action} (hlast : PicksLast s a) :
    StoresInOrder s a := by
  rintro hwritten ⟨f, g⟩ hfields u hu v hv
  obtain ⟨hpicked, hyears⟩ := hlast hwritten
  have hyear : 0 ≤ u.date.year := hyears _ hfields u hu
  obtain ⟨hle, hhigh⟩ := (pickedFrom_of_fields hfields hpicked).le hu hv hyear
  have hyears : u.date.year ≤ v.date.year ∧ v.date.year ≤ 2100 :=
    ⟨CivilDate.year_mono hle, CivilDate.year_mono hhigh⟩
  exact (keptInOrder_iff ⟨hyear, by omega⟩ ⟨by omega, by omega⟩).mpr hle

/-- The dates of a stored record are those parsed from the two fields. -/
theorem storesInOrder_iff {s : State} {a : Action} :
    StoresInOrder s a ↔ ∀ w ∈ written s a,
      KeptInOrder w.2.dataUltimoControllo.date w.2.dataProssimoControllo.date := by
  cases hwritten : written s a with
  | none => simp [StoresInOrder, hwritten]
  | some w =>
    obtain ⟨p, c⟩ := w
    obtain ⟨_, u, v, hfields, hu, hv⟩ := written_spec hwritten
    simp [StoresInOrder, hwritten, hfields, hu, hv]

/-- **When the next check is never before the last one.** In every run from empty
collections, every stored machine has ordered dates in every state exactly when the
two fields of every stored form have. Picking the next check last in every form is enough. -/
theorem always_ordered_iff {zone : Zone} {hist : List (State × Action)} {t : State}
    (hrun : Run (step zone) State.start hist t) :
    (Always (fun s => AllDocs (fun _ d => Controllo.Ordered d) s.backend.controlli) hist t ↔
      Steps StoresInOrder hist) ∧
    (Steps PicksLast hist →
      Always (fun s => AllDocs (fun _ d => Controllo.Ordered d) s.backend.controlli) hist t) := by
  have hiff : Always (fun s => AllDocs (fun _ d => Controllo.Ordered d) s.backend.controlli)
      hist t ↔ Steps StoresInOrder hist := by
    refine hrun.always_iff NoSheetKey (allDocs_empty _)
      (fun s a t hbefore hstep => noSheetKey_step hbefore hstep) (allDocs_empty _) ?_
    intro s a t hkey hbefore hstep
    rw [storesInOrder_iff]
    refine allDocs_step_iff
      (Q := fun c => KeptInOrder c.dataUltimoControllo.date c.dataProssimoControllo.date)
      hbefore hstep ?_
    intro p c d hsome hold
    obtain ⟨_, u, v, _, hu, hv⟩ := written_spec hsome
    refine Controllo.ordered_overwrite ?_ (DateTime.natAbs_year_of_parse hu)
      (DateTime.natAbs_year_of_parse hv)
    rcases hold with rfl | hold
    · rfl
    · simp [Controllo.schedaOf, hkey p d hold, asNullableString]
  refine ⟨hiff, ?_⟩
  intro hpicks
  exact hiff.mpr fun e he => storesInOrder_of_picksLast (hpicks e he)

/-- 15 January of a year that the calendar shows. -/
def gennaio15 (year : ℤ) : DateAction :=
  .pick (.normalize year 1 15)

/-- A new machine whose dates are picked in the order in which they are bounded. -/
def pickInOrder : List Action :=
  [.add "M1" [.descrizione "Pulizia", .dataUltimo (gennaio15 2022),
    .dataProssimo (gennaio15 2023), .file ⟨"/foto/scheda.pdf"⟩] .success .success]

/-- A new machine whose next check is picked while the last one is still empty. -/
def pickNextFirst : List Action :=
  [.add "M1" [.descrizione "Pulizia", .dataProssimo (gennaio15 2021),
    .dataUltimo (gennaio15 2022), .file ⟨"/foto/scheda.pdf"⟩] .success .success]

/-- The dates stay ordered along a run that picks the next check last. -/
theorem always_ordered_iff_M1 :
    Always (fun s => AllDocs (fun _ d => Controllo.Ordered d) s.backend.controlli)
      ((exec (step (Zone.fixed 0)) [] State.start pickInOrder).get (by decide +kernel)).1
      ((exec (step (Zone.fixed 0)) [] State.start pickInOrder).get (by decide +kernel)).2 :=
  (always_ordered_iff (run_get (by decide +kernel))).2 (by unfold Steps; decide +kernel)

/-- Picking the next check first stores a last check one year after the next one. -/
theorem ordered_fails_M1 :
    ((exec (step (Zone.fixed 0)) [] State.start pickNextFirst).map fun r =>
      (getControllo "M1" r.2.backend).map fun c =>
        (c.dataUltimoControllo.date.year, c.dataProssimoControllo.date.year)) =
      some (some (2022, 2021)) := by
  decide +kernel

end Confirms

end EthosApp
