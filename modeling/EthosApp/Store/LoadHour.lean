import EthosApp.Lib.Unwinding
import EthosApp.Screens.Pickers
import EthosApp.Store.UntouchedEdit

/-!
# The hour that a machine is loaded with

The home page decodes a machine with the hour `10:00:00`, the other pages with
`00:00:00`, so that the dates of the record handed to a form differ. The forms only use
their days: two records of one document cannot be told apart by what the form shows, by
the pickers it opens, or by what `Conferma` writes.
-/

namespace EthosApp

open Dart Gregorian Firestore Unwinding

/-- The day that a picker proposes, if it opens. -/
def PickerCall.proposed (call : PickerCall) : Option CivilDate :=
  if call.Asserted then some call.initialDate.date else none

/-- Pickers of the same days propose the same day. -/
theorem PickerCall.proposed_congr {call call' : PickerCall}
    (hfirst : call.firstDate.date = call'.firstDate.date)
    (hinitial : call.initialDate.date = call'.initialDate.date)
    (hlast : call.lastDate.date = call'.lastDate.date) : call.proposed = call'.proposed := by
  have hiff : call.Asserted ↔ call'.Asserted := by
    rw [Asserted, Asserted, hfirst, hinitial, hlast]
  rw [proposed, proposed, hinitial]
  by_cases hopens : call'.Asserted
  · rw [if_pos (hiff.mpr hopens), if_pos hopens]
  · rw [if_neg (mt hiff.mp hopens), if_neg hopens]

/-- A document with its path, as sent to the server. -/
abbrev Sent := Path × MapLiteral

/-- The record is the same at another hour, up to the time of day. -/
theorem Controllo.sameDays_atHour (c : Controllo) (h : Hour) : c.SameDays (c.atHour h) :=
  ⟨rfl, rfl, rfl, rfl, rfl, rfl, rfl⟩

/-! ## The form that changes a machine -/

namespace EditControl

/-- An open form, with the record that it was opened on. -/
structure Screen where
  /-- The record `widget.controllo`. -/
  widget : Controllo
  /-- The form. -/
  form : EditControl

/-- The form as it is opened on a record. -/
def Screen.start (widget : Controllo) : Option Screen :=
  (initState widget).map fun f => ⟨widget, f⟩

/-- What a user does on an open form: an action on a field, or the confirmation of a
picker with the day that it proposes. -/
inductive Gesture
  | field (a : Action)
  | acceptUltimo
  | acceptProssimo

/-- The day that the picker of the last check proposes. -/
def Screen.proposedUltimo (s : Screen) : Option CivilDate := (ultimoPicker s.widget).proposed

/-- The day that the picker of the next check proposes. -/
def Screen.proposedProssimo (s : Screen) : Option CivilDate :=
  (s.form.prossimoPicker s.widget).bind PickerCall.proposed

/-- The action that a gesture amounts to. -/
def Screen.action (s : Screen) : Gesture → Option Action
  | .field a => some a
  | .acceptUltimo => s.proposedUltimo.map fun d => .dataUltimo (.pick d)
  | .acceptProssimo => s.proposedProssimo.map fun d => .dataProssimo (.pick d)

/-- The form after a gesture. -/
def Screen.step (s : Screen) (g : Gesture) : Option Screen :=
  (s.action g).bind fun a => (act s.form a).map fun f => ⟨s.widget, f⟩

/-- What can be seen of an open form. -/
structure View where
  /-- The texts of the fields. -/
  texts : List String
  /-- The messages of the validators. -/
  messages : List (Option String)
  /-- The days that the pickers propose. -/
  proposed : List (Option CivilDate)
  /-- What `Conferma` writes to `controlli`, if the form is valid. -/
  written : Outcome → Option Sent
  /-- All that `Conferma` does, if the form is valid. -/
  conferma : Outcome → Outcome → Option Command

/-- What can be seen of an open form. -/
def Screen.view (s : Screen) : View where
  texts := [s.form.codice, s.form.tipo, s.form.periodo, s.form.descrizione,
    s.form.dataUltimoControllo.text, s.form.dataProssimoControllo.text, s.form.filename]
  messages := [notEmpty s.form.codice, notEmpty s.form.descrizione,
    s.form.dataUltimoControllo.validator, s.form.dataProssimoControllo.validator,
    notEmpty s.form.filename]
  proposed := [s.proposedUltimo, s.proposedProssimo]
  written oUpdate :=
    if s.form.valid then (s.form.writes oUpdate).map fun w => (w.1, w.2.toJson) else none
  conferma oUpdate oPut := if s.form.valid then some (s.form.conferma oUpdate oPut) else none

/-- One form, opened on two records of the same days. -/
structure Screen.Alike (s t : Screen) : Prop where
  /-- The records agree up to the time of day. -/
  widget : s.widget.SameDays t.widget
  /-- The forms agree. -/
  form : s.form = t.form

/-- The pickers propose the same days. -/
theorem Screen.Alike.proposed {s t : Screen} (h : s.Alike t) :
    s.proposedUltimo = t.proposedUltimo ∧ s.proposedProssimo = t.proposedProssimo := by
  constructor
  · exact PickerCall.proposed_congr rfl h.widget.dataUltimo rfl
  · rw [proposedProssimo, proposedProssimo, prossimoPicker, prossimoPicker, h.form]
    cases firstDateFrom t.form.dataUltimoControllo with
    | none => rfl
    | some first => exact PickerCall.proposed_congr rfl h.widget.dataProssimo rfl

/-- A gesture amounts to the same action. -/
theorem Screen.Alike.action {s t : Screen} (h : s.Alike t) (g : Gesture) :
    s.action g = t.action g := by
  cases g with
  | field a => rfl
  | acceptUltimo => rw [Screen.action, Screen.action, h.proposed.1]
  | acceptProssimo => rw [Screen.action, Screen.action, h.proposed.2]

/-- Every gesture leads from one form on two records of the same days to such a form. -/
theorem unwinds : Unwinds Screen.step Screen.view Screen.Alike := by
  constructor
  · intro s t h
    rw [Screen.view, Screen.view, h.proposed.1, h.proposed.2, h.form]
  · intro s t g h
    rw [Screen.step, Screen.step, h.action g, h.form]
    exact rel_bind_map fun f => ⟨h.widget, rfl⟩

/-- A date field is filled from the day alone. -/
theorem dateField_congr {t u : DateTime} (hday : t.date = u.date) : dateField t = dateField u := by
  rw [dateField, dateField, DateFormat.format, DateFormat.format, hday]

/-- The form is opened in the same state on records of the same days. -/
theorem initState_congr {c c' : Controllo} (h : c.SameDays c') : initState c = initState c' := by
  rw [initState, initState, dateField_congr h.dataUltimo, dateField_congr h.dataProssimo, h.tipo,
    h.periodo, h.cod, h.descrizione, h.scheda]

/-- The form can be opened on two records of the same days with four-digit years, and
then cannot be told apart. -/
theorem exists_start_alike {c c' : Controllo} (h : c.SameDays c') (hyears : c.FourDigitYears) :
    ∃ s t, Screen.start c = some s ∧ Screen.start c' = some t ∧
      Indistinguishable Screen.step Screen.view s t := by
  have hinit : ∃ f, initState c = some f := by
    rw [initState, dateField_eq_some hyears.1, dateField_eq_some hyears.2]
    exact ⟨_, rfl⟩
  obtain ⟨f, hf⟩ := hinit
  have hf' := hf
  rw [initState_congr h] at hf'
  refine ⟨⟨c, f⟩, ⟨c', f⟩, ?_, ?_, unwinds.indistinguishable ⟨h, rfl⟩⟩
  · rw [Screen.start, hf, Option.map_some]
  · rw [Screen.start, hf', Option.map_some]

end EditControl

/-! ## The form that registers a check -/

namespace ControlCheck

/-- An open form, with the record that it was opened on. -/
structure Screen where
  /-- The record `widget.controllo`. -/
  widget : Controllo
  /-- The form. -/
  form : ControlCheck

/-- The form as it is opened on a record. -/
def Screen.start (widget : Controllo) : Screen := ⟨widget, initState⟩

/-- What a user does on an open form: an action on a field, or the confirmation of a
picker with the day that it proposes, at a time. -/
inductive Gesture
  | field (a : Action)
  | acceptControllo (now : DateTime)
  | acceptProssimo (now : DateTime)

/-- The day that the picker of the check proposes. -/
def Screen.proposedControllo (now : DateTime) (s : Screen) : Option CivilDate :=
  (s.form.controlloPicker now).bind PickerCall.proposed

/-- The day that the picker of the next check proposes. -/
def Screen.proposedProssimo (z : LocalZone) (now : DateTime) (s : Screen) : Option CivilDate :=
  (s.form.prossimoPicker z now s.widget).bind PickerCall.proposed

/-- The action that a gesture amounts to. -/
def Screen.action (z : LocalZone) (s : Screen) : Gesture → Option Action
  | .field a => some a
  | .acceptControllo now => (s.proposedControllo now).map fun d => .dataControllo (.pick d)
  | .acceptProssimo now => (s.proposedProssimo z now).map fun d => .dataProssimo (.pick d)

/-- The form after a gesture. -/
def Screen.step (z : LocalZone) (s : Screen) (g : Gesture) : Option Screen :=
  (s.action z g).bind fun a => (act s.form a).map fun f => ⟨s.widget, f⟩

/-- What can be seen of an open form. -/
structure View where
  /-- The title, and the texts of the fields. -/
  texts : List String
  /-- The messages of the validators. -/
  messages : List (Option String)
  /-- The days that the pickers propose at a time. -/
  proposed : DateTime → List (Option CivilDate)
  /-- What `Conferma` writes to `controlli`, if the form is valid. -/
  written : Outcome → Option Sent
  /-- What `Conferma` writes to `registro_controlli`, and its identifier. -/
  registered : Outcome → Option (String × Sent)
  /-- All that `Conferma` does, if the form is valid. -/
  conferma : Outcome → Outcome → Option Command

/-- What can be seen of an open form. -/
def Screen.view (z : LocalZone) (zone : Zone) (s : Screen) : View where
  texts := ["Controllo " ++ s.widget.cod, s.widget.cod, s.widget.tipo, s.widget.periodo,
    s.widget.descrizione, s.form.segnalazione, s.form.dataControllo.text, s.form.dataProssimo.text]
  messages := [s.form.dataControllo.validator, s.form.dataProssimo.validator]
  proposed now := [s.proposedControllo now, s.proposedProssimo z now]
  written oUpdate :=
    if s.form.valid then (s.form.writes oUpdate s.widget).map fun w => (w.1, w.2.toJson) else none
  registered oRegistro :=
    if s.form.valid then
      (s.form.registers zone oRegistro s.widget).map
        fun w => (registroId zone w.2, w.1, w.2.toJson)
    else none
  conferma oRegistro oUpdate :=
    if s.form.valid then some (s.form.conferma zone oRegistro oUpdate s.widget) else none

/-- One form, opened on two records of the same days. -/
structure Screen.Alike (s t : Screen) : Prop where
  /-- The records agree up to the time of day. -/
  widget : s.widget.SameDays t.widget
  /-- The forms agree. -/
  form : s.form = t.form

/-- The pickers propose the same days. -/
theorem Screen.Alike.proposed {s t : Screen} (h : s.Alike t) (z : LocalZone) (now : DateTime) :
    s.proposedControllo now = t.proposedControllo now ∧
      s.proposedProssimo z now = t.proposedProssimo z now := by
  constructor
  · rw [proposedControllo, proposedControllo, h.form]
  · rw [proposedProssimo, proposedProssimo, prossimoPicker, prossimoPicker, h.form,
      h.widget.periodo]

/-- A gesture amounts to the same action. -/
theorem Screen.Alike.action {s t : Screen} (h : s.Alike t) (z : LocalZone) (g : Gesture) :
    s.action z g = t.action z g := by
  cases g with
  | field a => rfl
  | acceptControllo now => rw [Screen.action, Screen.action, (h.proposed z now).1]
  | acceptProssimo now => rw [Screen.action, Screen.action, (h.proposed z now).2]

/-- The entry does not depend on the dates of the record. -/
theorem registro_congr {c c' : Controllo} (h : c.SameDays c') : registro c = registro c' := by
  funext f dataControllo
  rw [registro, registro, h.cod, h.tipo]

/-- The written record does not depend on the dates of the record that it replaces. -/
theorem controllo_congr {c c' : Controllo} (h : c.SameDays c') : controllo c = controllo c' := by
  funext dataControllo dataProssimo
  rw [controllo, controllo, h.cod, h.tipo, h.periodo, h.descrizione, h.scheda]

/-- What `Conferma` does and writes does not depend on the dates of the record. -/
theorem conferma_congr {c c' : Controllo} (h : c.SameDays c') (zone : Zone) (f : ControlCheck) :
    (∀ oRegistro oUpdate, f.conferma zone oRegistro oUpdate c =
      f.conferma zone oRegistro oUpdate c') ∧
    (∀ oUpdate, f.writes oUpdate c = f.writes oUpdate c') ∧
    ∀ oRegistro, f.registers zone oRegistro c = f.registers zone oRegistro c' := by
  refine ⟨?_, ?_, ?_⟩
  · intro oRegistro oUpdate
    unfold conferma
    rw [registro_congr h, controllo_congr h]
  · intro oUpdate
    rw [writes, writes, controllo_congr h, h.cod]
  · intro oRegistro
    rw [registers, registers, registro_congr h]

/-- Every gesture leads from one form on two records of the same days to such a form. -/
theorem unwinds (z : LocalZone) (zone : Zone) :
    Unwinds (Screen.step z) (Screen.view z zone) Screen.Alike := by
  constructor
  · intro s t h
    obtain ⟨hconferma, hwrites, hregisters⟩ := conferma_congr h.widget zone t.form
    have hproposed := h.proposed z
    simp only [Screen.view, hproposed, h.form, h.widget.cod, h.widget.tipo, h.widget.periodo,
      h.widget.descrizione, hconferma, hwrites, hregisters]
  · intro s t g h
    rw [Screen.step, Screen.step, h.action z g, h.form]
    exact rel_bind_map fun f => ⟨h.widget, rfl⟩

end ControlCheck

/-- **The hour of loading.** A document that is decoded with some hour to a record with
four-digit years is decoded with every hour. The forms that are opened on the two records
cannot be told apart: after every sequence of gestures they show the same texts, messages
and proposed days, and `Conferma` writes the same documents under the same identifiers and
leaves the same remote state. -/
theorem hour_unseen {data : Doc} {h : Hour} {c : Controllo}
    (hdecode : Controllo.fromSnapshot data h.text = some c) (hyears : c.FourDigitYears)
    (h' : Hour) (z : LocalZone) (zone : Zone) :
    ∃ c', Controllo.fromSnapshot data h'.text = some c' ∧
      (∃ s t, EditControl.Screen.start c = some s ∧ EditControl.Screen.start c' = some t ∧
        Indistinguishable EditControl.Screen.step EditControl.Screen.view s t) ∧
      Indistinguishable (ControlCheck.Screen.step z) (ControlCheck.Screen.view z zone)
        (ControlCheck.Screen.start c) (ControlCheck.Screen.start c') := by
  have hdays := c.sameDays_atHour h'
  refine ⟨c.atHour h', UntouchedEdit.fromSnapshot_any_hour hdecode hyears h', ?_, ?_⟩
  · exact EditControl.exists_start_alike hdays hyears
  · exact (ControlCheck.unwinds z zone).indistinguishable ⟨hdays, rfl⟩

/-- The hour that the home page decodes machines with. -/
def homeHour : Hour := Hour.ten

/-- The two records of a document differ, and their forms cannot be told apart. -/
theorem hour_unseen_notCanonical : ∃ c c',
    Controllo.fromSnapshot (DocStore.ofMap UntouchedEdit.notCanonical) homeHour.text = some c ∧
      Controllo.fromSnapshot (DocStore.ofMap UntouchedEdit.notCanonical) Hour.zero.text = some c' ∧
      c ≠ c' ∧
      ∃ s t, EditControl.Screen.start c = some s ∧ EditControl.Screen.start c' = some t ∧
        Indistinguishable EditControl.Screen.step EditControl.Screen.view s t := by
  have hdecodes : (Controllo.fromSnapshot (DocStore.ofMap UntouchedEdit.notCanonical)
      homeHour.text).isSome := by decide +kernel
  obtain ⟨c, hc⟩ := Option.isSome_iff_exists.mp hdecodes
  have hfields : ∀ c ∈ Controllo.fromSnapshot (DocStore.ofMap UntouchedEdit.notCanonical)
      homeHour.text, c.FourDigitYears ∧ c.dataUltimoControllo.micros = homeHour.micros := by
    decide +kernel
  have hzero : ∀ c ∈ Controllo.fromSnapshot (DocStore.ofMap UntouchedEdit.notCanonical)
      Hour.zero.text, c.dataUltimoControllo.micros = 0 := by
    decide +kernel
  obtain ⟨hyears, hmicros⟩ := hfields c hc
  obtain ⟨c', hc', hedit, _⟩ := hour_unseen hc hyears Hour.zero (LocalZone.fixed 3600)
    (Zone.fixed 3600)
  refine ⟨c, c', hc, hc', ?_, hedit⟩
  rintro rfl
  rw [hzero c hc'] at hmicros
  exact absurd hmicros (by decide)

/-- Both pickers of the form can be confirmed as they open, and `Conferma` can be pressed. -/
example : (do
    let c ← Controllo.fromSnapshot (DocStore.ofMap UntouchedEdit.notCanonical) homeHour.text
    let s ← EditControl.Screen.start c
    let t ← [EditControl.Gesture.acceptUltimo, .acceptProssimo].foldlM EditControl.Screen.step s
    (t.view.written .success).map Prod.fst) = some ["M1"] := by
  decide +kernel

end EthosApp
