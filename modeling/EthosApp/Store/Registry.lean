import EthosApp.Lib.KeyedLog
import EthosApp.Store.Agenda
import EthosApp.Store.Confirms
import EthosApp.Store.Register
import EthosApp.Store.Sheets

/-!
# A registry of machines

What the remote state is for: to every code belongs an account with the machine that is
registered under it, the checks of its days and its sheet. A confirmed form makes events
on the account of one code, which depend on the form and on the answers of the server,
but not on what is stored. The two collections and the stored objects represent a
registry, and the handlers do to them what the events do to the accounts.
-/

namespace EthosApp

open Dart Gregorian Firestore DocStore

/-- What is known of a machine besides its code. -/
structure Machine where
  /-- The type. -/
  tipo : String
  /-- The period between checks. -/
  periodo : String
  /-- The description of the intervention. -/
  descrizione : String
  /-- The day of the last check. -/
  ultimo : CivilDate
  /-- The day of the next check. -/
  prossimo : CivilDate
  deriving DecidableEq

/-- What is known of a check besides its machine and its day. -/
structure Check where
  /-- The type of the machine. -/
  tipo : String
  /-- What was reported. -/
  segnalazioni : String
  /-- The outcome. -/
  esito : Bool
  deriving DecidableEq

/-- Everything that belongs to one code. -/
structure Account where
  /-- The machine, if one is registered. -/
  machine : Option Machine
  /-- The check of each day. -/
  checks : CivilDate → Option Check
  /-- The inspection sheet. -/
  sheet : Option File

/-- The account of every code. -/
abbrev Registry := String → Account

namespace Machine

/-- What a record says of its machine. -/
def ofControllo (c : Controllo) : Machine :=
  ⟨c.tipo, c.periodo, c.descrizione, c.dataUltimoControllo.date, c.dataProssimoControllo.date⟩

/-- The record of a machine, with both dates at midnight. -/
def record (code : String) (m : Machine) : Controllo where
  cod := code
  tipo := m.tipo
  periodo := m.periodo
  descrizione := m.descrizione
  dataUltimoControllo := .midnight m.ultimo
  dataProssimoControllo := .midnight m.prossimo
  scheda := "schede/" ++ code

/-- The code of a record. -/
@[simp] theorem record_cod (code : String) (m : Machine) : (m.record code).cod = code := rfl

/-- Of the two records of a machine, the one with midnights is stored alike. -/
theorem toJson_record {c : Controllo} (hscheda : c.scheda = "schede/" ++ c.cod) :
    ((ofControllo c).record c.cod).toJson = c.toJson := by
  have hday : ∀ t : DateTime, (DateTime.midnight t.date).isoDay = t.isoDay :=
    DateTime.isoDay_midnight
  simp [Controllo.toJson, record, ofControllo, hday, hscheda]

end Machine

/-- The entry of a check in the register. -/
def Check.entry (code : String) (day : CivilDate) (k : Check) : RegistroControllo where
  codice := code
  tipo := k.tipo
  dataControllo := .midnight day
  segnalazioni := k.segnalazioni
  esito := k.esito

/-- The entry of a check is dated at midnight. -/
theorem Check.entry_atMidnight (code : String) (day : CivilDate) (k : Check) :
    (k.entry code day).AtMidnight := rfl

/-- An entry dated at midnight is the entry of its check. -/
theorem Check.entry_of_midnight {r : RegistroControllo} (hmidnight : r.AtMidnight) :
    Check.entry r.codice r.dataControllo.date ⟨r.tipo, r.segnalazioni, r.esito⟩ = r := by
  unfold Check.entry
  rw [← hmidnight]

/-- Two entries are of one check exactly if their codes and days agree. -/
theorem Check.sameCheck_entry {code code' : String} {day day' : CivilDate} {k k' : Check} :
    (k.entry code day).SameCheck (k'.entry code' day') ↔ code = code' ∧ day = day' := Iff.rfl

/-! ## Events -/

/-- What happens to an account. -/
inductive Event
  /-- A machine is registered, or replaced. -/
  | put (m : Machine)
  /-- A machine that is registered is changed. -/
  | change (m : Machine)
  /-- The machine is removed. -/
  | remove
  /-- A check is carried out. -/
  | check (day : CivilDate) (k : Check)
  /-- A sheet is stored. -/
  | attach (file : File)
  /-- The sheet is removed. -/
  | detach
  deriving DecidableEq

/-- The account after an event. -/
def Event.apply : Event → Account → Account
  | .put m, a => { a with machine := some m }
  | .change m, a => { a with machine := a.machine.map fun _ => m }
  | .remove, a => { a with machine := none }
  | .check day k, a => { a with checks := Function.update a.checks day (some k) }
  | .attach file, a => { a with sheet := some file }
  | .detach, a => { a with sheet := none }

/-- The account of a code that was never used. -/
def Account.empty : Account := ⟨none, fun _ => none, none⟩

/-- The registry after a log of events, newest first. -/
def Registry.replay (log : List (String × Event)) : Registry → Registry :=
  KeyedLog.replay Event.apply log

/-- An event whose code is no path and whose dates have years of four digits. -/
def Event.Plain (e : String × Event) : Prop :=
  '/' ∉ e.1.toList ∧
    match e.2 with
    | .put m => (m.record e.1).FourDigitYears
    | .change m => (m.record e.1).FourDigitYears
    | .check day _ => 1 ≤ day.year ∧ day.year ≤ 9999
    | _ => True

instance (e : String × Event) : Decidable (Event.Plain e) := by
  unfold Event.Plain
  split <;> infer_instance

/-- The event of a handler that writes a record. -/
def recordEvent (kind : Machine → Event) (w : Option (Path × Controllo)) :
    List (String × Event) :=
  (w.map fun w => (w.2.cod, kind (.ofControllo w.2))).toList

/-- The event of a handler that registers an entry. -/
def entryEvent (w : Option (Path × RegistroControllo)) : List (String × Event) :=
  (w.map fun w => (w.2.codice, .check w.2.dataControllo.date
    ⟨w.2.tipo, w.2.segnalazioni, w.2.esito⟩)).toList

/-- The event of a handler that stores a file under a code. -/
def fileEvent (codice : String) (w : Option (String × File)) : List (String × Event) :=
  (w.map fun w => (codice, .attach w.2)).toList

/-- The event of a written record. -/
theorem mem_recordEvent {kind : Machine → Event} {w : Option (Path × Controllo)}
    {e : String × Event} :
    e ∈ recordEvent kind w ↔ ∃ p c, w = some (p, c) ∧ e = (c.cod, kind (.ofControllo c)) := by
  rcases w with _ | ⟨p, c⟩ <;> simp [recordEvent]

/-- The event of a registered entry. -/
theorem mem_entryEvent {w : Option (Path × RegistroControllo)} {e : String × Event} :
    e ∈ entryEvent w ↔ ∃ p r, w = some (p, r) ∧
      e = (r.codice, .check r.dataControllo.date ⟨r.tipo, r.segnalazioni, r.esito⟩) := by
  rcases w with _ | ⟨p, r⟩ <;> simp [entryEvent]

/-- The event of a stored file. -/
theorem mem_fileEvent {codice : String} {w : Option (String × File)} {e : String × Event} :
    e ∈ fileEvent codice w ↔ ∃ path x, w = some (path, x) ∧ e = (codice, .attach x) := by
  rcases w with _ | ⟨path, x⟩ <;> simp [fileEvent]

namespace Confirms

/-- The events of a step, newest first. They depend on the records held by screens, but
not on the remote state. -/
def events (zone : Zone) (s : State) : Action → List (String × Event)
  | .read _ _ => []
  | .add c actions oSet oPut =>
    match Add.session c actions with
    | none => []
    | some f => fileEvent f.codice (f.uploads oPut) ++ recordEvent .put (f.writes oSet)
  | .edit i actions oUpdate oPut =>
    match s.readings[i]?.bind fun r => EditControl.session r.controllo actions with
    | none => []
    | some f => fileEvent f.codice (f.uploads oPut) ++ recordEvent .change (f.writes oUpdate)
  | .check i actions oRegistro oUpdate =>
    match s.readings[i]?, ControlCheck.session actions with
    | some r, some f =>
      recordEvent .change (f.writes oUpdate r.controllo) ++
        entryEvent (f.registers zone oRegistro r.controllo)
    | _, _ => []
  | .delete c oDoc oFile =>
    match writtenPath oDoc c with
    | none => []
    | some _ => if oFile = .success then [(c, .detach), (c, .remove)] else [(c, .remove)]

/-- A step whose events are plain. -/
def PlainStep (zone : Zone) (s : State) (a : Action) : Prop := ∀ e ∈ events zone s a, Event.Plain e

instance (zone : Zone) (s : State) (a : Action) : Decidable (PlainStep zone s a) :=
  inferInstanceAs (Decidable (∀ _ ∈ _, _))

/-- The events recorded along a run, newest first. -/
def eventLog (zone : Zone) (hist : List (State × Action)) : List (String × Event) :=
  KeyedLog.log (events zone) hist

end Confirms

end EthosApp
