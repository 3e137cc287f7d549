import EthosApp.Screens.DateFields
import EthosApp.Services.DatabaseCommand

/-!
# `Screens/CheckControl.dart`

The form that registers a check of a machine, opened on a record read earlier.
-/

namespace EthosApp

open Dart Gregorian Firestore DocStore

/-- The state of the form. The flag `positivo` is never changed. -/
structure ControlCheck where
  /-- The text of `_segnalazione`. -/
  segnalazione : String := ""
  /-- The field of `_dataControllo`. -/
  dataControllo : DateTimeField := .empty
  /-- The field of `_dataProssimo`. -/
  dataProssimo : DateTimeField := .empty

namespace ControlCheck

/-- The form as it is opened. -/
def initState : ControlCheck := {}

/-- A user action on the form. -/
inductive Action
  | segnalazione (s : String)
  | dataControllo (a : DateAction)
  | dataProssimo (a : DateAction)

/-- The form after an action, where the action is offered. The picker of the check
date takes its first date from the field itself. -/
def act (f : ControlCheck) : Action → Option ControlCheck
  | .segnalazione s => some { f with segnalazione := s }
  | .dataControllo a =>
    (dateAction ((firstDateFrom f.dataControllo).map DateTime.date) a).map
      fun d => { f with dataControllo := d }
  | .dataProssimo a =>
    (dateAction ((firstDateFrom f.dataControllo).map DateTime.date) a).map
      fun d => { f with dataProssimo := d }

/-- What an action does to the two dates. -/
def Action.dates : Action → DatesAction
  | .dataControllo a => .first a
  | .dataProssimo a => .second a
  | _ => .other

/-- An action has its effect on the two date fields. -/
theorem act_dates {f f' : ControlCheck} {a : Action} (hact : act f a = some f') :
    a.dates.Step f.dataControllo f.dataProssimo f'.dataControllo f'.dataProssimo := by
  cases a with
  | dataControllo a => trivial
  | dataProssimo a =>
    obtain ⟨d, hd, rfl⟩ := Option.map_eq_some_iff.mp hact
    exact ⟨rfl, hd⟩
  | _ =>
    simp only [act, Option.some.injEq] at hact
    grind [Action.dates, DatesAction.Step]

/-- `_formKey.currentState!.validate()`. -/
def valid (f : ControlCheck) : Bool :=
  f.dataControllo.validator = none ∧ f.dataProssimo.validator = none

/-- The form after a sequence of actions, where it passes validation. -/
def session (actions : List Action) : Option ControlCheck := do
  let f ← actions.foldlM act initState
  if f.valid then return f else none

/-- A session takes its actions from the form as opened, and ends in a valid form. -/
theorem session_eq_some {actions : List Action} {f : ControlCheck} :
    session actions = some f ↔ actions.foldlM act initState = some f ∧ f.valid = true := by
  simp only [session, Option.bind_eq_bind, Option.bind_eq_some_iff, Option.pure_def,
    Option.ite_none_right_eq_some, Option.some.injEq]
  constructor
  · rintro ⟨f', hrun, hvalid, rfl⟩
    exact ⟨hrun, hvalid⟩
  · rintro ⟨hrun, hvalid⟩
    exact ⟨f, hrun, hvalid, rfl⟩

/-- A session that picks the second date last ends with a bounded day. -/
theorem pickedFrom_of_session {actions : List Action} {f : ControlCheck}
    (hsession : session actions = some f) (hlast : pickedLast (actions.map Action.dates) = true) :
    PickedFrom f.dataControllo f.dataProssimo := by
  obtain ⟨hrun, _⟩ := session_eq_some.mp hsession
  exact pickedFrom_of_pickedLast Action.dates dataControllo dataProssimo (fun _ _ _ => act_dates)
    hrun hlast

/-- The text that an action enters in a date of the machine. -/
def Action.entry : Controllo.Campo → Action → Option String
  | .dataUltimo, .dataControllo a => some a.text
  | .dataProssimo, .dataProssimo a => some a.text
  | _, _ => none

/-- The two fields show the texts that an action enters in them, and otherwise those they had. -/
theorem act_text {f f' : ControlCheck} {a : Action} (hact : act f a = some f') :
    f'.dataControllo.text = (a.entry .dataUltimo).getD f.dataControllo.text ∧
      f'.dataProssimo.text = (a.entry .dataProssimo).getD f.dataProssimo.text := by
  cases a <;>
    grind [act, Action.entry, Option.map_eq_some_iff, dateAction_eq, DateTimeField.typed]

/-- After a session the two fields show the dates that were entered last, if any were. -/
theorem session_text {actions : List Action} {f : ControlCheck}
    (hsession : session actions = some f) :
    f.dataControllo.text = (lastEntry (Action.entry .dataUltimo) actions).getD "" ∧
      f.dataProssimo.text = (lastEntry (Action.entry .dataProssimo) actions).getD "" := by
  obtain ⟨hrun, _⟩ := session_eq_some.mp hsession
  constructor
  · refine foldlM_lastEntry (fun g : ControlCheck => g.dataControllo.text) ?_ hrun
    intro g a g' hact
    exact (act_text hact).1
  · refine foldlM_lastEntry (fun g : ControlCheck => g.dataProssimo.text) ?_ hrun
    intro g a g' hact
    exact (act_text hact).2

/-- Both dates of a valid form are accepted texts. -/
theorem session_accepted {actions : List Action} {f : ControlCheck}
    (hsession : session actions = some f) :
    (DateFormat.parse f.dataControllo.text).isSome ∧
      (DateFormat.parse f.dataProssimo.text).isSome := by
  obtain ⟨hrun, hvalid⟩ := session_eq_some.mp hsession
  have haccepted : f.dataControllo.Accepted ∧ f.dataProssimo.Accepted := by
    refine foldlM_invariant
      (I := fun g : ControlCheck => g.dataControllo.Accepted ∧ g.dataProssimo.Accepted) ?_ hrun ?_
    · intro g a g' _ hg hact
      cases a with
      | segnalazione s =>
        cases hact
        exact hg
      | dataControllo a =>
        obtain ⟨d, hd, rfl⟩ := Option.map_eq_some_iff.mp hact
        exact ⟨dateAction_accepted hd, hg.2⟩
      | dataProssimo a =>
        obtain ⟨d, hd, rfl⟩ := Option.map_eq_some_iff.mp hact
        exact ⟨hg.1, dateAction_accepted hd⟩
    · constructor <;> intro hvalue <;> cases hvalue
  simp only [valid, decide_eq_true_eq, DateTimeField.validator_eq_none] at hvalid
  exact ⟨haccepted.1 hvalid.1, haccepted.2 hvalid.2⟩

/-- The entry of the register built by the handler for a check date. -/
def registro (widget : Controllo) (f : ControlCheck) (dataControllo : DateTime) :
    RegistroControllo where
  codice := widget.cod
  tipo := widget.tipo
  segnalazioni := f.segnalazione
  dataControllo := dataControllo
  esito := false

/-- The record built by the handler for the two dates. -/
def controllo (widget : Controllo) (dataControllo dataProssimo : DateTime) : Controllo :=
  { widget with
    dataUltimoControllo := dataControllo
    dataProssimoControllo := dataProssimo }

/-- The `Conferma` handler. The register is written without being awaited, and before
the text of the next check is parsed. It completes normally exactly when it reaches
`pushNamed('home')`. -/
def conferma (zone : Zone) (oRegistro oUpdate : Outcome) (widget : Controllo)
    (f : ControlCheck) : Command := fun b =>
  match f.dataControllo.parsed with
  | none => Command.throw b
  | some dataControllo =>
    (registroControllo zone oRegistro (registro widget f dataControllo)).unawaited.andThen
      (fun b' =>
        match f.dataProssimo.parsed with
        | none => Command.throw b'
        | some dataProssimo =>
          editControlDB oUpdate (controllo widget dataControllo dataProssimo) b') b

/-- The record that the handler writes, with the document it addresses. -/
def writes (oUpdate : Outcome) (widget : Controllo) (f : ControlCheck) :
    Option (Path × Controllo) := do
  let dataControllo ← f.dataControllo.parsed
  let dataProssimo ← f.dataProssimo.parsed
  let p ← writtenPath oUpdate widget.cod
  return (p, controllo widget dataControllo dataProssimo)

/-- The entry that the handler puts in the register, with the document it addresses. -/
def registers (zone : Zone) (oRegistro : Outcome) (widget : Controllo) (f : ControlCheck) :
    Option (Path × RegistroControllo) := do
  let dataControllo ← f.dataControllo.parsed
  let p ← writtenPath oRegistro (registroId zone (registro widget f dataControllo))
  return (p, registro widget f dataControllo)

/-- A record is written if both dates are parsed and the update is executed. -/
theorem writes_eq_some {oUpdate : Outcome} {widget : Controllo} {f : ControlCheck} {p : Path}
    {c : Controllo} :
    f.writes oUpdate widget = some (p, c) ↔
      f.dataControllo.parsed = some c.dataUltimoControllo ∧
      f.dataProssimo.parsed = some c.dataProssimoControllo ∧
      c = controllo widget c.dataUltimoControllo c.dataProssimoControllo ∧
      oUpdate = .success ∧ docPath widget.cod = some p := by
  simp only [writes, Option.bind_eq_bind, Option.bind_eq_some_iff, Option.pure_def,
    Option.some.injEq, Prod.mk.injEq, writtenPath_eq_some]
  constructor
  · rintro ⟨u, hu, v, hv, p', ⟨ho, hp⟩, rfl, rfl⟩
    exact ⟨hu, hv, rfl, ho, hp⟩
  · rintro ⟨hu, hv, hc, ho, hp⟩
    exact ⟨_, hu, _, hv, p, ⟨ho, hp⟩, rfl, hc.symm⟩

/-- A date that a handler parses, in a field that shows the last entry, was entered. -/
theorem entered_of_parsed {d : DateTimeField} {t : DateTime} {entry : Option String}
    (htext : d.text = entry.getD "") (hparsed : d.parsed = some t) :
    ∃ s, entry = some s ∧ (DateTimeField.typed s).parsed = some t := by
  cases entry with
  | none => exact absurd htext (text_ne_of_parsed hparsed)
  | some s =>
    rw [Option.getD_some] at htext
    subst htext
    exact ⟨d.text, rfl, hparsed⟩

/-- **The dates of a check.** Both were entered, and they are written with the texts that were
entered last. -/
theorem writes_entered {actions : List Action} {oUpdate : Outcome} {widget : Controllo}
    {f : ControlCheck} {p : Path} {c : Controllo} {k : Controllo.Campo}
    (hsession : session actions = some f) (hwrites : f.writes oUpdate widget = some (p, c))
    (hk : k = .dataUltimo ∨ k = .dataProssimo) :
    ∃ s, lastEntry (Action.entry k) actions = some s ∧ k.stored s = some (c.text k) := by
  obtain ⟨htextUltimo, htextProssimo⟩ := session_text hsession
  obtain ⟨hu, hv, _⟩ := writes_eq_some.mp hwrites
  rcases hk with rfl | rfl
  · obtain ⟨s, hs, hparsed⟩ := entered_of_parsed htextUltimo hu
    exact ⟨s, hs, congrArg (Option.map DateTime.isoDay) hparsed⟩
  · obtain ⟨s, hs, hparsed⟩ := entered_of_parsed htextProssimo hv
    exact ⟨s, hs, congrArg (Option.map DateTime.isoDay) hparsed⟩

/-- An entry is registered if the date of the check is parsed and the set is executed. -/
theorem registers_eq_some {zone : Zone} {oRegistro : Outcome} {widget : Controllo}
    {f : ControlCheck} {p : Path} {r : RegistroControllo} :
    f.registers zone oRegistro widget = some (p, r) ↔
      f.dataControllo.parsed = some r.dataControllo ∧
      r = registro widget f r.dataControllo ∧
      oRegistro = .success ∧ docPath (registroId zone r) = some p := by
  simp only [registers, Option.bind_eq_bind, Option.bind_eq_some_iff, Option.pure_def,
    Option.some.injEq, Prod.mk.injEq, writtenPath_eq_some]
  constructor
  · rintro ⟨u, hu, p', ⟨ho, hp⟩, rfl, rfl⟩
    exact ⟨hu, rfl, ho, hp⟩
  · rintro ⟨hu, hr, ho, hp⟩
    exact ⟨_, hu, p, ⟨ho, by rwa [← hr]⟩, rfl, hr.symm⟩

/-- What the handler does to the machines. -/
theorem conferma_controlli (zone : Zone) (oRegistro oUpdate : Outcome) (widget : Controllo)
    (f : ControlCheck) (b : Backend) :
    (f.conferma zone oRegistro oUpdate widget b).2.controlli =
      match f.writes oUpdate widget with
      | none => b.controlli
      | some (p, c) => updateDoc p c.toJson b.controlli := by
  cases hultimo : f.dataControllo.parsed with
  | none =>
    unfold conferma
    simp [hultimo, writes, Command.throw]
  | some dataControllo =>
    have hregistro : ∀ r, (registroControllo zone oRegistro r b).2.controlli = b.controlli := by
      intro r
      rw [registroControllo_snd]
      split <;> rfl
    cases hprossimo : f.dataProssimo.parsed with
    | none =>
      unfold conferma
      simp [hultimo, hprossimo, writes, Command.andThen, Command.unawaited, Command.throw,
        hregistro]
    | some dataProssimo =>
      unfold conferma
      cases hpath : writtenPath oUpdate widget.cod <;>
        simp [hultimo, hprossimo, writes, Command.andThen, Command.unawaited, editControlDB_snd,
          controllo, hpath, hregistro]

/-- What the handler does to the register. -/
theorem conferma_registro (zone : Zone) (oRegistro oUpdate : Outcome) (widget : Controllo)
    (f : ControlCheck) (b : Backend) :
    (f.conferma zone oRegistro oUpdate widget b).2.registroControlli =
      match f.registers zone oRegistro widget with
      | none => b.registroControlli
      | some (p, r) => setDoc p r.toJson b.registroControlli := by
  cases hultimo : f.dataControllo.parsed with
  | none =>
    unfold conferma
    simp [hultimo, registers, Command.throw]
  | some dataControllo =>
    unfold conferma
    rw [hultimo]
    dsimp only
    rw [Command.andThen_frame Backend.registroControlli, Command.unawaited, registroControllo_snd]
    · cases hpath : writtenPath oRegistro (registroId zone (registro widget f dataControllo)) <;>
        simp [registers, hultimo, hpath]
    · intro b'
      cases f.dataProssimo.parsed with
      | none => rfl
      | some dataProssimo =>
        rw [editControlDB_snd]
        split <;> rfl

/-- The handler leaves the stored objects alone. -/
theorem conferma_storage (zone : Zone) (oRegistro oUpdate : Outcome) (widget : Controllo)
    (f : ControlCheck) (b : Backend) :
    (f.conferma zone oRegistro oUpdate widget b).2.storage = b.storage := by
  cases hultimo : f.dataControllo.parsed with
  | none =>
    unfold conferma
    simp [hultimo, Command.throw]
  | some dataControllo =>
    unfold conferma
    rw [hultimo]
    dsimp only
    rw [Command.andThen_frame Backend.storage, Command.unawaited, registroControllo_snd]
    · split <;> rfl
    · intro b'
      cases f.dataProssimo.parsed with
      | none => rfl
      | some dataProssimo => exact (editControlDB_frame _ _ _).1

end ControlCheck

end EthosApp
