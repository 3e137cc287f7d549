import EthosApp.DataTypes.Tipo
import EthosApp.Screens.AddControl

/-!
# `Screens/EditControl.dart`

The form that changes a machine, opened on a record read earlier.
-/

namespace EthosApp

open Dart Gregorian Firestore DocStore

/-- The state of the form. -/
structure EditControl where
  /-- The chosen type. -/
  tipo : String
  /-- The chosen period. -/
  periodo : String
  /-- The text of `_codice`, which is read only. -/
  codice : String
  /-- The text of `_descrizione`. -/
  descrizione : String
  /-- The text of `_filename`. -/
  filename : String
  /-- The field of `_dataUltimoControllo`. -/
  dataUltimoControllo : DateTimeField
  /-- The field of `_dataProssimoControllo`. -/
  dataProssimoControllo : DateTimeField
  /-- The chosen file. -/
  file : Option File

namespace EditControl

/-- A date field over the text of a date, whose initial value is parsed back from the
text while the form is built. -/
def dateField (t : DateTime) : Option DateTimeField :=
  (DateTime.parse (splitReversedJoin '/' '-' (DateFormat.format t))).map fun v =>
    ⟨DateFormat.format t, some v⟩

/-- The field over a date with a four-digit year shows its day. -/
theorem dateField_eq_some {t : DateTime} (hyear : 0 ≤ t.date.year ∧ t.date.year ≤ 9999) :
    dateField t = some ⟨DateFormat.format t, some (DateTime.midnight t.date)⟩ := by
  have hrange := DateTime.inRange_midnight (c := t.date) ⟨by omega, hyear.2⟩
  rw [dateField, DateFormat.splitReversedJoin_format, DateTime.parse_ymd hyear.1 hrange,
    Option.map_some]

/-- `initState`, and the date fields of the first `build`, on the record `widget.controllo`. The
two dropdown buttons of the form assert that their value is offered exactly once: when they
are built is the subject of `Screens/Dropdowns.lean`. -/
def initState (controllo : Controllo) : Option EditControl := do
  let dataUltimoControllo ← dateField controllo.dataUltimoControllo
  let dataProssimoControllo ← dateField controllo.dataProssimoControllo
  return {
    tipo := controllo.tipo
    periodo := controllo.periodo
    codice := controllo.cod
    descrizione := controllo.descrizione
    filename := controllo.scheda
    dataUltimoControllo, dataProssimoControllo
    file := none }

/-- The form opens with the fields of the record. -/
theorem initState_spec {controllo : Controllo} {f : EditControl}
    (hinit : initState controllo = some f) :
    f.tipo = controllo.tipo ∧ f.periodo = controllo.periodo ∧ f.codice = controllo.cod ∧
      f.descrizione = controllo.descrizione ∧
      f.dataUltimoControllo.text = DateFormat.format controllo.dataUltimoControllo ∧
      f.dataProssimoControllo.text = DateFormat.format controllo.dataProssimoControllo := by
  simp only [initState, dateField, Option.bind_eq_bind, Option.bind_eq_some_iff,
    Option.map_eq_some_iff, Option.pure_def, Option.some.injEq] at hinit
  obtain ⟨_, ⟨u, _, rfl⟩, _, ⟨v, _, rfl⟩, rfl⟩ := hinit
  exact ⟨rfl, rfl, rfl, rfl, rfl, rfl⟩

/-- A user action on the form. -/
inductive Action
  | tipo (s : String)
  | periodo (s : String)
  | descrizione (s : String)
  | dataUltimo (a : DateAction)
  | dataProssimo (a : DateAction)
  | file (f : File)

/-- The form after an action, where the action is offered. -/
def act (f : EditControl) : Action → Option EditControl
  | .tipo s => if s ∈ tip then some { f with tipo := s } else none
  | .periodo s => if s ∈ per then some { f with periodo := s } else none
  | .descrizione s => some { f with descrizione := s }
  | .dataUltimo a =>
    (dateAction (some firstDate1900) a).map fun d => { f with dataUltimoControllo := d }
  | .dataProssimo a =>
    (dateAction ((firstDateFrom f.dataUltimoControllo).map DateTime.date) a).map
      fun d => { f with dataProssimoControllo := d }
  | .file x => some { f with filename := Add.lastComponent x.path, file := some x }

/-- What an action does to the two dates. -/
def Action.dates : Action → DatesAction
  | .dataUltimo a => .first a
  | .dataProssimo a => .second a
  | _ => .other

/-- An action has its effect on the two date fields. -/
theorem act_dates {f f' : EditControl} {a : Action} (hact : act f a = some f') :
    a.dates.Step f.dataUltimoControllo f.dataProssimoControllo f'.dataUltimoControllo
      f'.dataProssimoControllo := by
  cases a with
  | dataUltimo a => trivial
  | dataProssimo a =>
    obtain ⟨d, hd, rfl⟩ := Option.map_eq_some_iff.mp hact
    exact ⟨rfl, hd⟩
  | _ =>
    simp only [act, Option.ite_none_right_eq_some, Option.some.injEq] at hact
    grind [Action.dates, DatesAction.Step]

/-- `_formKey.currentState!.validate()`. -/
def valid (f : EditControl) : Bool :=
  notEmpty f.codice = none ∧ notEmpty f.descrizione = none ∧
    f.dataUltimoControllo.validator = none ∧ f.dataProssimoControllo.validator = none ∧
    notEmpty f.filename = none

/-- The form after a sequence of actions, where it passes validation. Whether its dropdown
buttons are built is left out here. -/
def session (controllo : Controllo) (actions : List Action) : Option EditControl := do
  let f ← initState controllo
  let f ← actions.foldlM act f
  if f.valid then return f else none

/-- A session takes its actions from the form as opened, and ends in a valid form. -/
theorem session_eq_some {controllo : Controllo} {actions : List Action} {f : EditControl} :
    session controllo actions = some f ↔ ∃ f₀, initState controllo = some f₀ ∧
      actions.foldlM act f₀ = some f ∧ f.valid = true := by
  simp only [session, Option.bind_eq_bind, Option.bind_eq_some_iff, Option.pure_def,
    Option.ite_none_right_eq_some, Option.some.injEq]
  constructor
  · rintro ⟨f₀, hinit, f', hrun, hvalid, rfl⟩
    exact ⟨f₀, hinit, hrun, hvalid⟩
  · rintro ⟨f₀, hinit, hrun, hvalid⟩
    exact ⟨f₀, hinit, f, hrun, hvalid, rfl⟩

/-- A session that picks the second date last ends with a bounded day. -/
theorem pickedFrom_of_session {controllo : Controllo} {actions : List Action} {f : EditControl}
    (hsession : session controllo actions = some f)
    (hlast : pickedLast (actions.map Action.dates) = true) :
    PickedFrom f.dataUltimoControllo f.dataProssimoControllo := by
  obtain ⟨f₀, _, hrun, _⟩ := session_eq_some.mp hsession
  exact pickedFrom_of_pickedLast Action.dates dataUltimoControllo dataProssimoControllo
    (fun _ _ _ => act_dates) hrun hlast

/-- The record built by the handler. -/
def controllo (f : EditControl) : Option Controllo := do
  let dataUltimoControllo ← f.dataUltimoControllo.parsed
  let dataProssimoControllo ← f.dataProssimoControllo.parsed
  return {
    cod := f.codice
    tipo := f.tipo
    periodo := f.periodo
    descrizione := f.descrizione
    dataUltimoControllo, dataProssimoControllo
    scheda := "schede/" ++ f.codice }

/-- The record built by the handler has the fields of the form, with both dates parsed. -/
theorem controllo_eq_some {f : EditControl} {c : Controllo} :
    f.controllo = some c ↔ f.dataUltimoControllo.parsed = some c.dataUltimoControllo ∧
      f.dataProssimoControllo.parsed = some c.dataProssimoControllo ∧
      c.cod = f.codice ∧ c.tipo = f.tipo ∧ c.periodo = f.periodo ∧
      c.descrizione = f.descrizione ∧ c.scheda = "schede/" ++ f.codice := by
  cases c
  cases hultimo : f.dataUltimoControllo.parsed with
  | none => simp [controllo, hultimo]
  | some u =>
    cases hprossimo : f.dataProssimoControllo.parsed with
    | none => simp [controllo, hultimo, hprossimo]
    | some v =>
      simp only [controllo, hultimo, hprossimo, Option.bind_eq_bind, Option.bind_some,
        Option.pure_def, Option.some.injEq, Controllo.mk.injEq]
      grind

/-- The code of the record is the code of the form. -/
theorem controllo_cod {f : EditControl} {c : Controllo} (hform : f.controllo = some c) :
    c.cod = f.codice := (controllo_eq_some.mp hform).2.2.1

/-- The field that an action changes. -/
def Action.campo : Action → Option Controllo.Campo
  | .tipo _ => some .tipo
  | .periodo _ => some .periodo
  | .descrizione _ => some .descrizione
  | .dataUltimo _ => some .dataUltimo
  | .dataProssimo _ => some .dataProssimo
  | .file _ => none

/-- The text that the form shows for a field. -/
def text (f : EditControl) : Controllo.Campo → String
  | .tipo => f.tipo
  | .periodo => f.periodo
  | .descrizione => f.descrizione
  | .dataUltimo => f.dataUltimoControllo.text
  | .dataProssimo => f.dataProssimoControllo.text

/-- The text that an action enters in a field. -/
def Action.entry : Controllo.Campo → Action → Option String
  | .tipo, .tipo s => some s
  | .periodo, .periodo s => some s
  | .descrizione, .descrizione s => some s
  | .dataUltimo, .dataUltimo a => some a.text
  | .dataProssimo, .dataProssimo a => some a.text
  | _, _ => none

/-- An action enters a text in the field that it changes, and in no other. -/
theorem Action.entry_isSome {a : Action} {k : Controllo.Campo} :
    (a.entry k).isSome ↔ a.campo = some k := by
  cases a <;> cases k <;> simp [Action.entry, Action.campo]

/-- A field shows the text that an action enters in it, and otherwise the text it had. -/
theorem act_text {f f' : EditControl} {a : Action} {k : Controllo.Campo}
    (hact : act f a = some f') : f'.text k = (a.entry k).getD (f.text k) := by
  cases a <;> cases k <;>
    grind [act, Action.entry, text, Option.map_eq_some_iff, dateAction_eq, DateTimeField.typed]

/-- After a session a field shows the text that was entered last, if one was. -/
theorem session_text {widget : Controllo} {actions : List Action} {f f₀ : EditControl}
    {k : Controllo.Campo} (hinit : initState widget = some f₀)
    (hsession : session widget actions = some f) :
    f.text k = (lastEntry (Action.entry k) actions).getD (f₀.text k) := by
  obtain ⟨f₁, hf₁, hrun, _⟩ := session_eq_some.mp hsession
  rw [hinit] at hf₁
  cases hf₁
  exact foldlM_lastEntry (fun g => g.text k) (fun _ _ _ => act_text) hrun

/-- No action changes the code. -/
theorem session_codice {widget : Controllo} {actions : List Action} {f : EditControl}
    (hsession : session widget actions = some f) : f.codice = widget.cod := by
  obtain ⟨f₀, hinit, hrun, _⟩ := session_eq_some.mp hsession
  have hact : ∀ g a g', act g a = some g' → True → g'.codice = g.codice := by
    intro g a g' hact _
    cases a <;> grind [act, Option.map_eq_some_iff]
  rw [foldlM_frame EditControl.codice hact hrun fun _ _ => trivial]
  exact (initState_spec hinit).2.2.1

/-- The day shown for a date is parsed back as that day. -/
theorem parse_of_text {t v : DateTime} {d : DateTimeField} (htext : d.text = DateFormat.format t)
    (hyear : 0 ≤ t.date.year) (hrange : DateTime.InRange (t.date.toDays * microsPerDay))
    (hparsed : d.parsed = some v) : v.isoDay = t.isoDay := by
  rw [DateTimeField.parsed_format htext hyear hrange] at hparsed
  cases hparsed
  exact DateTime.isoDay_congr rfl

/-- **Unchanged fields of an edit.** A field that the user of a session did not change
is written with the text of the record the session was opened on. -/
theorem controllo_text {widget c : Controllo} {actions : List Action} {f : EditControl}
    {k : Controllo.Campo} (hsession : session widget actions = some f)
    (hform : f.controllo = some c) (hk : ∀ a ∈ actions, a.campo ≠ some k)
    (hdate : ∀ t, widget.date k = some t →
      0 ≤ t.date.year ∧ DateTime.InRange (t.date.toDays * microsPerDay)) :
    c.text k = widget.text k := by
  obtain ⟨f₀, hinit, _, _⟩ := session_eq_some.mp hsession
  have hnone : lastEntry (Action.entry k) actions = none := by
    refine lastEntry_eq_none.mpr fun a ha => ?_
    rw [← Option.not_isSome_iff_eq_none, Action.entry_isSome]
    exact hk a ha
  have htext : f.text k = f₀.text k := by rw [session_text hinit hsession, hnone, Option.getD_none]
  obtain ⟨htipo, hperiodo, _, hdescrizione, hultimo, hprossimo⟩ := initState_spec hinit
  obtain ⟨hu, hv, _, htipo', hperiodo', hdescrizione', _⟩ := controllo_eq_some.mp hform
  cases k with
  | tipo => exact htipo'.trans (htext.trans htipo)
  | periodo => exact hperiodo'.trans (htext.trans hperiodo)
  | descrizione => exact hdescrizione'.trans (htext.trans hdescrizione)
  | dataUltimo => exact parse_of_text (htext.trans hultimo) (hdate _ rfl).1 (hdate _ rfl).2 hu
  | dataProssimo => exact parse_of_text (htext.trans hprossimo) (hdate _ rfl).1 (hdate _ rfl).2 hv

/-- The record of a form stores what the form shows. -/
theorem stored_text {f : EditControl} {c : Controllo} {k : Controllo.Campo}
    (hform : f.controllo = some c) : k.stored (f.text k) = some (c.text k) := by
  obtain ⟨hu, hv, _, htipo, hperiodo, hdescrizione, _⟩ := controllo_eq_some.mp hform
  cases k with
  | tipo => exact congrArg some htipo.symm
  | periodo => exact congrArg some hperiodo.symm
  | descrizione => exact congrArg some hdescrizione.symm
  | dataUltimo => exact congrArg (Option.map DateTime.isoDay) hu
  | dataProssimo => exact congrArg (Option.map DateTime.isoDay) hv

/-- **Changed fields of an edit.** A field that the user of a session changed is written with
the text that was entered last. -/
theorem controllo_entered {widget c : Controllo} {actions : List Action} {f : EditControl}
    {k : Controllo.Campo} (hsession : session widget actions = some f)
    (hform : f.controllo = some c) (hk : ∃ a ∈ actions, a.campo = some k) :
    ∃ s, lastEntry (Action.entry k) actions = some s ∧ k.stored s = some (c.text k) := by
  obtain ⟨f₀, hinit, _, _⟩ := session_eq_some.mp hsession
  have htext : f.text k = (lastEntry (Action.entry k) actions).getD (f₀.text k) :=
    session_text hinit hsession
  cases hentry : lastEntry (Action.entry k) actions with
  | none =>
    obtain ⟨a, ha, hcampo⟩ := hk
    have hsome := Action.entry_isSome.mpr hcampo
    rw [lastEntry_eq_none.mp hentry a ha] at hsome
    cases hsome
  | some s =>
    rw [hentry, Option.getD_some] at htext
    exact ⟨s, rfl, htext ▸ stored_text hform⟩

/-- The `Conferma` handler. The file of the upload, and the code, are read from the form again
once the update has been answered: the dialog may have been closed meanwhile and the form
changed. The handler completes normally exactly when it comes to `pushNamed('home')`. -/
def confermaWith (oUpdate oPut : Outcome) (f later : EditControl) : Command := fun b =>
  match f.controllo with
  | none => Command.throw b
  | some c =>
    (editControlDB oUpdate c).andThen (fun b' =>
      match later.file with
      | none => Command.skip b'
      | some file => putFile oPut ("schede/" ++ later.codice) file b') b

/-- The `Conferma` handler of a form that is left alone. -/
def conferma (oUpdate oPut : Outcome) (f : EditControl) : Command := f.confermaWith oUpdate oPut f

/-- The record that the handler writes, with the document it addresses. -/
def writes (oUpdate : Outcome) (f : EditControl) : Option (Path × Controllo) := do
  let c ← f.controllo
  let p ← writtenPath oUpdate c.cod
  return (p, c)

/-- A record is written if both dates are parsed and the write is executed. -/
theorem writes_eq_some {f : EditControl} {oUpdate : Outcome} {p : Path} {c : Controllo} :
    f.writes oUpdate = some (p, c) ↔
      f.controllo = some c ∧ oUpdate = .success ∧ docPath c.cod = some p := by
  simp only [writes, Option.bind_eq_bind, Option.bind_eq_some_iff, Option.pure_def,
    Option.some.injEq, Prod.mk.injEq, writtenPath_eq_some]
  constructor
  · rintro ⟨c', hform, p', hpath, rfl, rfl⟩
    exact ⟨hform, hpath⟩
  · rintro ⟨hform, hpath⟩
    exact ⟨c, hform, p, hpath, rfl, rfl⟩

/-- A form with a record updates the document, and then stores the new file if one was
chosen. -/
theorem confermaWith_some {f later : EditControl} {oUpdate oPut : Outcome} {c : Controllo}
    {b : Backend} (hform : f.controllo = some c) :
    f.confermaWith oUpdate oPut later b = (editControlDB oUpdate c).andThen (fun b' =>
      match later.file with
      | none => Command.skip b'
      | some file => putFile oPut ("schede/" ++ later.codice) file b') b := by
  unfold confermaWith
  rw [hform]

/-- What the handler does to the machines. -/
theorem confermaWith_controlli (f later : EditControl) (oUpdate oPut : Outcome) (b : Backend) :
    (f.confermaWith oUpdate oPut later b).2.controlli =
      match f.writes oUpdate with
      | none => b.controlli
      | some (p, c) => updateDoc p c.toJson b.controlli := by
  cases hform : f.controllo with
  | none =>
    unfold confermaWith
    simp [hform, writes, Command.throw]
  | some c =>
    rw [confermaWith_some hform, Command.andThen_frame Backend.controlli, editControlDB_snd]
    · cases hpath : writtenPath oUpdate c.cod <;> simp [writes, hform, hpath]
    · intro b'
      cases later.file <;> cases oPut <;> rfl

/-- The handler leaves the register alone. -/
theorem confermaWith_registro (f later : EditControl) (oUpdate oPut : Outcome) (b : Backend) :
    (f.confermaWith oUpdate oPut later b).2.registroControlli = b.registroControlli := by
  cases hform : f.controllo with
  | none =>
    unfold confermaWith
    simp [hform, Command.throw]
  | some c =>
    rw [confermaWith_some hform, Command.andThen_frame Backend.registroControlli,
      editControlDB_snd]
    · cases writtenPath oUpdate c.cod <;> rfl
    · intro b'
      cases later.file <;> cases oPut <;> rfl

/-- The object that the handler stores. -/
def uploadsWith (oPut : Outcome) (f later : EditControl) : Option (String × File) :=
  f.controllo.bind fun _ => uploaded oPut f.codice later.codice later.file

/-- The object that the handler of a form that is left alone stores. -/
def uploads (oPut : Outcome) (f : EditControl) : Option (String × File) := f.uploadsWith oPut f

/-- What the handler does to the stored objects. -/
theorem confermaWith_storage (f later : EditControl) (oUpdate oPut : Outcome) (b : Backend) :
    (f.confermaWith oUpdate oPut later b).2.storage =
      afterUpload b.storage (f.uploadsWith oPut later) := by
  cases hform : f.controllo with
  | none =>
    unfold confermaWith
    simp [hform, uploadsWith, Command.throw, afterUpload]
  | some c =>
    obtain ⟨hstorage, hthrows⟩ := editControlDB_frame oUpdate c b
    obtain ⟨_, _, hcod, _⟩ := controllo_eq_some.mp hform
    rw [hcod] at hthrows
    rw [confermaWith_some hform]
    refine (storage_andThen_putFile Command.skip oPut later.file hstorage hthrows
      fun _ => rfl).trans ?_
    simp [uploadsWith, hform]

/-- A form with a record that is left alone. -/
theorem conferma_some {f : EditControl} {oUpdate oPut : Outcome} {c : Controllo} {b : Backend}
    (hform : f.controllo = some c) :
    f.conferma oUpdate oPut b = (editControlDB oUpdate c).andThen (fun b' =>
      match f.file with
      | none => Command.skip b'
      | some file => putFile oPut ("schede/" ++ f.codice) file b') b := confermaWith_some hform

/-- What the handler of a form that is left alone does to the machines. -/
theorem conferma_controlli (f : EditControl) (oUpdate oPut : Outcome) (b : Backend) :
    (f.conferma oUpdate oPut b).2.controlli =
      match f.writes oUpdate with
      | none => b.controlli
      | some (p, c) => updateDoc p c.toJson b.controlli :=
  f.confermaWith_controlli f oUpdate oPut b

/-- It leaves the register alone. -/
theorem conferma_registro (f : EditControl) (oUpdate oPut : Outcome) (b : Backend) :
    (f.conferma oUpdate oPut b).2.registroControlli = b.registroControlli :=
  f.confermaWith_registro f oUpdate oPut b

/-- What it does to the stored objects. -/
theorem conferma_storage (f : EditControl) (oUpdate oPut : Outcome) (b : Backend) :
    (f.conferma oUpdate oPut b).2.storage = afterUpload b.storage (f.uploads oPut) :=
  f.confermaWith_storage f oUpdate oPut b

end EditControl

end EthosApp
