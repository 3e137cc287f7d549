import EthosApp.DataTypes.Tipo
import EthosApp.Screens.DateFields
import EthosApp.Services.DatabaseCommand

/-!
# `Screens/AddControl.dart`

The form that registers a machine, and the handler of its confirmation dialog.
-/

namespace EthosApp

open Dart Gregorian Firestore DocStore

/-- The state of the form. -/
structure Add where
  /-- The text of `_codice`. -/
  codice : String
  /-- The chosen type. -/
  tipo : String := "Armadi per stoccaggio"
  /-- The chosen period. -/
  periodo : String := "Mensile"
  /-- The text of `_descrizione`. -/
  descrizione : String := ""
  /-- The text of `_filename`. -/
  filename : String := ""
  /-- The field of `_dataUltimoControllo`. -/
  dataUltimoControllo : DateTimeField := .empty
  /-- The field of `_dataProssimoControllo`. -/
  dataProssimoControllo : DateTimeField := .empty
  /-- The chosen file. -/
  file : Option File := none

namespace Add

/-- `initState`, with the code the screen was opened with. -/
def initState (c : String) : Add := { codice := c }

/-- A user action on the form. -/
inductive Action
  | codice (s : String)
  | tipo (s : String)
  | periodo (s : String)
  | descrizione (s : String)
  | dataUltimo (a : DateAction)
  | dataProssimo (a : DateAction)
  | file (f : File)

/-- The last component of a path, `path.split('/').last`. -/
def lastComponent (path : String) : String :=
  String.ofList ((path.toList.splitOn '/').getLastD [])

/-- The form after an action, where the action is offered. -/
def act (f : Add) : Action → Option Add
  | .codice s => some { f with codice := s }
  | .tipo s => if s ∈ tip then some { f with tipo := s } else none
  | .periodo s => if s ∈ per then some { f with periodo := s } else none
  | .descrizione s => some { f with descrizione := s }
  | .dataUltimo a =>
    (dateAction (some firstDate1900) a).map fun d => { f with dataUltimoControllo := d }
  | .dataProssimo a =>
    (dateAction ((firstDateFrom f.dataUltimoControllo).map DateTime.date) a).map
      fun d => { f with dataProssimoControllo := d }
  | .file x => some { f with filename := lastComponent x.path, file := some x }

/-- What an action does to the two dates. -/
def Action.dates : Action → DatesAction
  | .dataUltimo a => .first a
  | .dataProssimo a => .second a
  | _ => .other

/-- An action has its effect on the two date fields. -/
theorem act_dates {f f' : Add} {a : Action} (hact : act f a = some f') :
    a.dates.Step f.dataUltimoControllo f.dataProssimoControllo f'.dataUltimoControllo
      f'.dataProssimoControllo := by
  cases a with
  | dataUltimo a => trivial
  | dataProssimo a =>
    obtain ⟨d, hd, rfl⟩ := Option.map_eq_some_iff.mp hact
    exact ⟨rfl, hd⟩
  | _ =>
    simp only [act, Option.ite_none_right_eq_some, Option.some.injEq] at hact
    grind [Action.dates, DatesAction.Step]

/-- `_formKey.currentState!.validate()`, and a file has been chosen. -/
def valid (f : Add) : Bool :=
  notEmpty f.codice = none ∧ notEmpty f.descrizione = none ∧
    f.dataUltimoControllo.validator = none ∧ f.dataProssimoControllo.validator = none ∧
    notEmpty f.filename = none ∧ f.file.isSome

/-- The form after a sequence of actions, where `Salva` leads to the confirmation dialog. -/
def session (c : String) (actions : List Action) : Option Add := do
  let f ← actions.foldlM act (initState c)
  if f.valid then return f else none

/-- A session takes its actions from the form as opened, and ends in a valid form. -/
theorem session_eq_some {c : String} {actions : List Action} {f : Add} :
    session c actions = some f ↔ actions.foldlM act (initState c) = some f ∧ f.valid = true := by
  simp only [session, Option.bind_eq_bind, Option.bind_eq_some_iff, Option.pure_def,
    Option.ite_none_right_eq_some, Option.some.injEq]
  constructor
  · rintro ⟨f', hrun, hvalid, rfl⟩
    exact ⟨hrun, hvalid⟩
  · rintro ⟨hrun, hvalid⟩
    exact ⟨f, hrun, hvalid, rfl⟩

/-- A session that picks the second date last ends with a bounded day. -/
theorem pickedFrom_of_session {c : String} {actions : List Action} {f : Add}
    (hsession : session c actions = some f) (hlast : pickedLast (actions.map Action.dates) = true) :
    PickedFrom f.dataUltimoControllo f.dataProssimoControllo := by
  obtain ⟨hrun, _⟩ := session_eq_some.mp hsession
  exact pickedFrom_of_pickedLast Action.dates dataUltimoControllo dataProssimoControllo
    (fun _ _ _ => act_dates) hrun hlast

/-- The record built by the handler. -/
def controllo (f : Add) : Option Controllo := do
  let dataUltimoControllo ← f.dataUltimoControllo.parsed
  let dataProssimoControllo ← f.dataProssimoControllo.parsed
  return {
    cod := f.codice
    tipo := f.tipo
    periodo := f.periodo
    descrizione := f.descrizione
    dataUltimoControllo, dataProssimoControllo
    scheda := "schede/" ++ f.codice }

/-- The record built by the handler has the fields of the form, with both dates parsed. -/
theorem controllo_eq_some {f : Add} {c : Controllo} :
    f.controllo = some c ↔ f.dataUltimoControllo.parsed = some c.dataUltimoControllo ∧
      f.dataProssimoControllo.parsed = some c.dataProssimoControllo ∧
      c.cod = f.codice ∧ c.tipo = f.tipo ∧ c.periodo = f.periodo ∧
      c.descrizione = f.descrizione ∧ c.scheda = "schede/" ++ f.codice := by
  cases c
  cases hultimo : f.dataUltimoControllo.parsed with
  | none => simp [controllo, hultimo]
  | some u =>
    cases hprossimo : f.dataProssimoControllo.parsed with
    | none => simp [controllo, hultimo, hprossimo]
    | some v =>
      simp only [controllo, hultimo, hprossimo, Option.bind_eq_bind, Option.bind_some,
        Option.pure_def, Option.some.injEq, Controllo.mk.injEq]
      grind

/-- The `Conferma` handler. The code and the file of the upload are read from the form again
once the set has been answered: the dialog may have been closed meanwhile and the form
changed. The handler completes normally exactly when it comes to `pushNamed('home')`. -/
def confermaWith (oSet oPut : Outcome) (f later : Add) : Command := fun b =>
  match f.controllo with
  | none => Command.throw b
  | some c =>
    (addControlloDB oSet c).andThen (fun b' =>
      match later.file with
      | none => Command.throw b'
      | some file => putFile oPut ("schede/" ++ later.codice) file b') b

/-- The `Conferma` handler of a form that is left alone. -/
def conferma (oSet oPut : Outcome) (f : Add) : Command := f.confermaWith oSet oPut f

/-- The record that the handler writes, with the document it addresses. -/
def writes (oSet : Outcome) (f : Add) : Option (Path × Controllo) := do
  let c ← f.controllo
  let p ← writtenPath oSet c.cod
  return (p, c)

/-- A record is written if both dates are parsed and the write is executed. -/
theorem writes_eq_some {f : Add} {oSet : Outcome} {p : Path} {c : Controllo} :
    f.writes oSet = some (p, c) ↔
      f.controllo = some c ∧ oSet = .success ∧ docPath c.cod = some p := by
  simp only [writes, Option.bind_eq_bind, Option.bind_eq_some_iff, Option.pure_def,
    Option.some.injEq, Prod.mk.injEq, writtenPath_eq_some]
  constructor
  · rintro ⟨c', hform, p', hpath, rfl, rfl⟩
    exact ⟨hform, hpath⟩
  · rintro ⟨hform, hpath⟩
    exact ⟨c, hform, p, hpath, rfl, rfl⟩

/-- A form with a record sets the document, and then stores the file. -/
theorem confermaWith_some {f later : Add} {oSet oPut : Outcome} {c : Controllo} {b : Backend}
    (hform : f.controllo = some c) :
    f.confermaWith oSet oPut later b = (addControlloDB oSet c).andThen (fun b' =>
      match later.file with
      | none => Command.throw b'
      | some file => putFile oPut ("schede/" ++ later.codice) file b') b := by
  unfold confermaWith
  rw [hform]

/-- What the handler does to the machines. -/
theorem confermaWith_controlli (f later : Add) (oSet oPut : Outcome) (b : Backend) :
    (f.confermaWith oSet oPut later b).2.controlli =
      match f.writes oSet with
      | none => b.controlli
      | some (p, c) => setDoc p c.toJson b.controlli := by
  cases hform : f.controllo with
  | none =>
    unfold confermaWith
    simp [hform, writes, Command.throw]
  | some c =>
    rw [confermaWith_some hform, Command.andThen_frame Backend.controlli, addControlloDB_snd]
    · cases hpath : writtenPath oSet c.cod <;> simp [writes, hform, hpath]
    · intro b'
      cases later.file <;> cases oPut <;> rfl

/-- The handler leaves the register alone. -/
theorem confermaWith_registro (f later : Add) (oSet oPut : Outcome) (b : Backend) :
    (f.confermaWith oSet oPut later b).2.registroControlli = b.registroControlli := by
  cases hform : f.controllo with
  | none =>
    unfold confermaWith
    simp [hform, Command.throw]
  | some c =>
    rw [confermaWith_some hform, Command.andThen_frame Backend.registroControlli,
      addControlloDB_snd]
    · cases writtenPath oSet c.cod <;> rfl
    · intro b'
      cases later.file <;> cases oPut <;> rfl

/-- The object that the handler stores. -/
def uploadsWith (oPut : Outcome) (f later : Add) : Option (String × File) :=
  f.controllo.bind fun _ => uploaded oPut f.codice later.codice later.file

/-- The object that the handler of a form that is left alone stores. -/
def uploads (oPut : Outcome) (f : Add) : Option (String × File) := f.uploadsWith oPut f

/-- What the handler does to the stored objects. -/
theorem confermaWith_storage (f later : Add) (oSet oPut : Outcome) (b : Backend) :
    (f.confermaWith oSet oPut later b).2.storage =
      afterUpload b.storage (f.uploadsWith oPut later) := by
  cases hform : f.controllo with
  | none =>
    unfold confermaWith
    simp [hform, uploadsWith, Command.throw, afterUpload]
  | some c =>
    obtain ⟨hstorage, hthrows⟩ := addControlloDB_frame oSet c b
    obtain ⟨_, _, hcod, _⟩ := controllo_eq_some.mp hform
    rw [hcod] at hthrows
    rw [confermaWith_some hform]
    refine (storage_andThen_putFile Command.throw oPut later.file hstorage hthrows
      fun _ => rfl).trans ?_
    simp [uploadsWith, hform]

/-- What the handler of a form that is left alone does to the machines. -/
theorem conferma_controlli (f : Add) (oSet oPut : Outcome) (b : Backend) :
    (f.conferma oSet oPut b).2.controlli =
      match f.writes oSet with
      | none => b.controlli
      | some (p, c) => setDoc p c.toJson b.controlli := f.confermaWith_controlli f oSet oPut b

/-- It leaves the register alone. -/
theorem conferma_registro (f : Add) (oSet oPut : Outcome) (b : Backend) :
    (f.conferma oSet oPut b).2.registroControlli = b.registroControlli :=
  f.confermaWith_registro f oSet oPut b

/-- What it does to the stored objects. -/
theorem conferma_storage (f : Add) (oSet oPut : Outcome) (b : Backend) :
    (f.conferma oSet oPut b).2.storage = afterUpload b.storage (f.uploads oPut) :=
  f.confermaWith_storage f oSet oPut b

end Add

end EthosApp
