import EthosApp.Screens.Dropdowns
import EthosApp.Store.Decodable

/-!
# Machines that can be opened for editing

Whatever the forms store, the type and the period come from the offered lists. A stored
machine is one whose dropdowns can be built unless its type is the one that is listed
twice.
-/

namespace EthosApp

open Dart Firestore DocStore Runs

/-- The type and the period of a record are listed. -/
def Controllo.Listed (c : Controllo) : Prop := c.tipo ∈ tip ∧ c.periodo ∈ per

/-- The dropdowns can be built over the type and the period that a document stores. -/
structure DropdownsOf (d : Doc) : Prop where
  /-- The type is the value of one item. -/
  tipo : ∀ s, asString (d "tipo") = some s → OneItem tip s
  /-- The period is the value of one item. -/
  periodo : ∀ s, asString (d "periodo") = some s → OneItem per s

/-- The dropdowns can be built over a document to which a record with a listed type and
period was written, unless that type is listed twice. -/
theorem dropdownsOf_overwrite {d : Doc} {c : Controllo} (hc : c.Listed) :
    DropdownsOf (overwrite d c.toJson) ↔ c.tipo ≠ compressoreAria := by
  have htipo : asString (overwrite d c.toJson "tipo") = some c.tipo := rfl
  have hperiodo : asString (overwrite d c.toJson "periodo") = some c.periodo := rfl
  constructor
  · intro h
    exact (oneItem_tip.mp (h.tipo _ htipo)).2
  · intro hne
    constructor
    · intro s hs
      rw [htipo] at hs
      cases hs
      exact oneItem_tip.mpr ⟨hc.1, hne⟩
    · intro s hs
      rw [hperiodo] at hs
      cases hs
      exact oneItem_per.mpr hc.2

/-- Decoding a document to which a record was written gives its type and period. -/
theorem Controllo.Listed.decoded {c c' : Controllo} (hc : c.Listed) {d : Doc} {h : Hour}
    (hdecode : Controllo.fromSnapshot (overwrite d c.toJson) h.text = some c') : c'.Listed := by
  obtain ⟨_, htipo, hperiodo, _⟩ := Controllo.fromSnapshot_spec hdecode
  have hwrittenTipo : asString (overwrite d c.toJson "tipo") = some c.tipo := rfl
  have hwrittenPeriodo : asString (overwrite d c.toJson "periodo") = some c.periodo := rfl
  rw [hwrittenTipo, Option.some.injEq] at htipo
  rw [hwrittenPeriodo, Option.some.injEq] at hperiodo
  unfold Controllo.Listed
  rwa [← htipo, ← hperiodo]

namespace Confirms

/-- A step stores a listed type and period. -/
theorem written_listed {s : State} {a : Action} {p : Path} {c : Controllo}
    (hs : Records Controllo.Listed s) (hwritten : written s a = some (p, c)) : c.Listed := by
  unfold Controllo.Listed
  cases a with
  | read p hour => cases hwritten
  | delete c oDoc oFile => cases hwritten
  | add code actions oSet oPut =>
    obtain ⟨f, hf, hwrites⟩ := written_add.mp hwritten
    obtain ⟨hrun, _⟩ := Add.session_eq_some.mp hf
    obtain ⟨hform, _⟩ := Add.writes_eq_some.mp hwrites
    obtain ⟨_, _, _, htipo, hperiodo, _⟩ := Add.controllo_eq_some.mp hform
    rw [htipo, hperiodo]
    have hfirst : "Armadi per stoccaggio" ∈ tip ∧ "Mensile" ∈ per := by decide
    exact Add.offers.run hrun hfirst
  | edit i actions oUpdate oPut =>
    obtain ⟨r, f, hr, hf, hwrites, _⟩ := written_edit.mp hwritten
    obtain ⟨f₀, hinit, hrun, _⟩ := EditControl.session_eq_some.mp hf
    obtain ⟨hform, _⟩ := EditControl.writes_eq_some.mp hwrites
    obtain ⟨_, _, _, htipo, hperiodo, _⟩ := EditControl.controllo_eq_some.mp hform
    rw [htipo, hperiodo]
    refine EditControl.offers.run hrun ?_
    obtain ⟨hstart, hstart', _⟩ := EditControl.initState_spec hinit
    rw [hstart, hstart']
    exact hs.readings r (List.mem_of_getElem? hr)
  | check i actions oRegistro oUpdate =>
    obtain ⟨r, f, hr, hf, hwrites, _⟩ := written_check.mp hwritten
    obtain ⟨_, _, hc, _⟩ := ControlCheck.writes_eq_some.mp hwrites
    rw [hc]
    exact hs.readings r (List.mem_of_getElem? hr)

/-- A step keeps all records on a listed type and period. -/
theorem listed_step {zone : Zone} {s t : State} {a : Action} (hs : Records Controllo.Listed s)
    (hstep : step zone s a = some t) : Records Controllo.Listed t := by
  refine records_step hs hstep ?_
  intro p c d hsome h c' hdecode
  exact (written_listed hs hsome).decoded hdecode

/-- In every run, whatever is stored or read has a listed type and period. -/
theorem listed_of_run {zone : Zone} {hist : List (State × Action)} {s : State}
    (hrun : Run (step zone) State.start hist s) : Records Controllo.Listed s :=
  (hrun.always (records_start Controllo.Listed) fun _ _ _ => listed_step).1

/-- A step from machines that can be opened leaves machines that can be opened exactly if
it does not store the type that is listed twice. -/
theorem dropdownsOf_step_iff {zone : Zone} {s t : State} {a : Action}
    (hs : Records Controllo.Listed s)
    (hbefore : AllDocs (fun _ d => DropdownsOf d) s.backend.controlli)
    (hstep : step zone s a = some t) :
    AllDocs (fun _ d => DropdownsOf d) t.backend.controlli ↔
      ∀ w ∈ written s a, w.2.tipo ≠ compressoreAria := by
  refine allDocs_step_iff (Q := fun c => c.tipo ≠ compressoreAria) hbefore hstep ?_
  intro p c d hsome _
  exact dropdownsOf_overwrite (written_listed hs hsome)

/-- **When the dropdowns can be built.** In every run of confirms, all stored machines can
be opened in every state exactly if no step stores the type that is listed twice. Opened
on any record that a stored document decodes to, the Edit form can be built in every state
of a run of actions exactly if neither the record has that type nor an action chooses it,
and likewise the Add form. -/
theorem dropdowns_iff {zone : Zone} {hist : List (State × Action)} {s : State}
    (hrun : Run (step zone) State.start hist s) :
    (Always (fun s => AllDocs (fun _ d => DropdownsOf d) s.backend.controlli) hist s ↔
      Steps (fun s a => ∀ w ∈ written s a, w.2.tipo ≠ compressoreAria) hist) ∧
    (∀ p d (h : Hour) widget f₀, s.backend.controlli.lookup p = some d →
      Controllo.fromSnapshot d h.text = some widget → EditControl.initState widget = some f₀ →
      ∀ hist f, Run EditControl.act f₀ hist f →
        (Always (EditControl.DropdownsBuild widget) hist f ↔ widget.tipo ≠ compressoreAria ∧
          Steps (fun _ a => a.choice ≠ some compressoreAria) hist)) ∧
    ∀ c hist f, Run Add.act (Add.initState c) hist f →
      (Always Add.DropdownsBuild hist f ↔
        Steps (fun _ a => a.choice ≠ some compressoreAria) hist) := by
  refine ⟨?_, ?_, ?_⟩
  · refine hrun.always_iff (Records Controllo.Listed) (records_start _)
      (fun _ _ _ => listed_step) (allDocs_empty _) ?_
    intro s a t hs hbefore hstep
    exact dropdownsOf_step_iff hs hbefore hstep
  · intro p d h widget f₀ hdoc hdecode hinit hist f hform
    have hlisted := (listed_of_run hrun).stored p d hdoc h widget hdecode
    exact EditControl.always_dropdowns_iff hlisted hinit hform
  · intro c hist f hform
    exact Add.always_dropdowns_iff hform

/-- The dropdowns of a machine that is added, read and checked. -/
theorem dropdowns_iff_M1 :
    Always (fun s => AllDocs (fun _ d => DropdownsOf d) s.backend.controlli)
      (runM1.get runM1_isSome).1 (runM1.get runM1_isSome).2 :=
  (dropdowns_iff (run_get runM1_isSome)).1.mpr (by unfold Steps; decide +kernel)

/-- A machine with the type that is listed twice is added and read. -/
def addCompressore : List Action :=
  [.add "M1" (.tipo compressoreAria :: fill "15/01/2022" "15/01/2023") .success .success,
    .read ["M1"] Hour.zero]

/-- The Add form cannot be built again after that type has been chosen, and the Edit form
cannot be built on the machine that is stored with it. -/
theorem dropdowns_fail :
    (((Add.initState "M1").act (.tipo compressoreAria)).map fun f => decide f.DropdownsBuild) =
      some false ∧
    ((exec (step (Zone.fixed 0)) [] State.start addCompressore).map fun r =>
      r.2.readings.map fun r => (r.controllo.cod, decide (OneItem tip r.controllo.tipo))) =
        some [("M1", false)] := by
  decide +kernel

/-! ## Descriptions -/

/-- A step stores no empty description: the forms that have one do not accept it, and a check
keeps that of the machine. -/
theorem written_described {s : State} {a : Action} {p : Path} {c : Controllo}
    (hs : Records (fun c => c.descrizione ≠ "") s) (hwritten : written s a = some (p, c)) :
    c.descrizione ≠ "" := by
  have hvalid : ∀ text, notEmpty text = none → text ≠ "" := by
    rintro text hnone rfl
    cases hnone
  cases a with
  | read p hour => cases hwritten
  | delete c oDoc oFile => cases hwritten
  | add code actions oSet oPut =>
    obtain ⟨f, hf, hwrites⟩ := written_add.mp hwritten
    obtain ⟨_, hf⟩ := Add.session_eq_some.mp hf
    obtain ⟨hform, _⟩ := Add.writes_eq_some.mp hwrites
    obtain ⟨_, _, _, _, _, hdescrizione, _⟩ := Add.controllo_eq_some.mp hform
    simp only [Add.valid, decide_eq_true_eq] at hf
    rw [hdescrizione]
    exact hvalid _ hf.2.1
  | edit i actions oUpdate oPut =>
    obtain ⟨r, f, _, hf, hwrites, _⟩ := written_edit.mp hwritten
    obtain ⟨_, _, _, hf⟩ := EditControl.session_eq_some.mp hf
    obtain ⟨hform, _⟩ := EditControl.writes_eq_some.mp hwrites
    obtain ⟨_, _, _, _, _, hdescrizione, _⟩ := EditControl.controllo_eq_some.mp hform
    simp only [EditControl.valid, decide_eq_true_eq] at hf
    rw [hdescrizione]
    exact hvalid _ hf.2.1
  | check i actions oRegistro oUpdate =>
    obtain ⟨r, f, hr, _, hwrites, _⟩ := written_check.mp hwritten
    obtain ⟨_, _, hc, _⟩ := ControlCheck.writes_eq_some.mp hwrites
    rw [hc]
    exact hs.readings r (List.mem_of_getElem? hr)

/-- In every run, all records have a description. -/
theorem described_of_run {zone : Zone} {hist : List (State × Action)} {s : State}
    (hrun : Run (step zone) State.start hist s) : Records (fun c => c.descrizione ≠ "") s := by
  refine (hrun.always (records_start _) fun s a t hs hstep => records_step hs hstep ?_).1
  intro p c d hsome h c' hdecode
  obtain ⟨_, _, _, hdescrizione, _⟩ := Controllo.fromSnapshot_spec hdecode
  have hwritten : asString (overwrite d c.toJson "descrizione") = some c.descrizione := rfl
  rw [hwritten, Option.some.injEq] at hdescrizione
  rw [← hdescrizione]
  exact written_described hs hsome

end Confirms

end EthosApp
