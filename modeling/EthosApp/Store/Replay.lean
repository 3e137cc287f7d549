import EthosApp.Store.Registry

/-!
# The remote state replays the events

After every run of plain steps the remote state represents the replay of the events of
the run. What every reader returns is therefore determined, machine by machine, by the
events of that machine, whatever the other clients did meanwhile.
-/

namespace EthosApp

open Dart Gregorian Firestore DocStore Runs Confirms

/-- The document that a registry has at a path. -/
def Registry.document (A : Registry) : Path → Option Doc
  | [code] => (A code).machine.map fun m => ofMap (m.record code).toJson
  | _ => none

/-- A remote state represents a registry. -/
structure Represents (zone : Zone) (A : Registry) (b : Backend) : Prop where
  /-- The machines are stored under their codes. -/
  machines : ∀ p, b.controlli.lookup p = A.document p
  /-- The checks are registered under their codes and days. -/
  checks : ∀ p d, b.registroControlli.lookup p = some d ↔ ∃ code day k,
    (A code).checks day = some k ∧ p = [registroId zone (k.entry code day)] ∧
      d = ofMap (k.entry code day).toJson
  /-- The sheets are stored under their codes, which are no paths. -/
  sheets : ∀ object file, b.storage object = some file ↔ ∃ code, '/' ∉ code.toList ∧
    object = child ("schede/" ++ code) ∧ (A code).sheet = some file
  /-- A registered code addresses a document, and the dates have four digits. -/
  plain : ∀ code m, (A code).machine = some m →
    docPath code = some [code] ∧ (m.record code).FourDigitYears
  /-- A checked code is no path, and the year of the check has four digits. -/
  regular : ∀ code day k, (A code).checks day = some k → (k.entry code day).Regular

/-- The registry in which no code was used. -/
def Registry.empty : Registry := fun _ => .empty

/-- The empty remote state represents the registry in which no code was used. -/
theorem represents_empty (zone : Zone) : Represents zone Registry.empty Backend.empty where
  machines p := by
    refine (AList.lookup_empty p).trans ?_
    unfold Registry.document
    split <;> rfl
  checks p d := by simp [Backend.empty, Registry.empty, Account.empty]
  sheets object file := by simp [Backend.empty, Registry.empty, Account.empty]
  plain code m hm := by cases hm
  regular code day k hk := by cases hk

/-! ## What an event does to the remote state -/

/-- The effect of an event on the account of a code. -/
def Event.store (zone : Zone) (code : String) (b : Backend) : Event → Backend
  | .put m => { b with controlli := setDoc [code] (m.record code).toJson b.controlli }
  | .change m => { b with controlli := updateDoc [code] (m.record code).toJson b.controlli }
  | .remove => { b with controlli := b.controlli.erase [code] }
  | .check day k =>
    { b with
      registroControlli := setDoc [registroId zone (k.entry code day)] (k.entry code day).toJson
        b.registroControlli }
  | .attach file =>
    { b with storage := Function.update b.storage (child ("schede/" ++ code)) (some file) }
  | .detach => { b with storage := Function.update b.storage (child ("schede/" ++ code)) none }

/-- A document of a machine that is overwritten is the document of the newer record. -/
theorem overwrite_toJson (c c' : Controllo) :
    overwrite (ofMap c.toJson) c'.toJson = ofMap c'.toJson := by
  funext k
  by_cases hk : k ∈ Controllo.keys
  · obtain ⟨v, hv⟩ : ∃ v, c'.toJson.lookup k = some v := by
      simp only [Controllo.keys, List.mem_cons, List.not_mem_nil, or_false] at hk
      rcases hk with rfl | rfl | rfl | rfl | rfl | rfl | rfl <;> exact ⟨_, rfl⟩
    rw [overwrite_of_lookup hv, ofMap, hv]
  · have hold := Controllo.toJson_lookup_eq_none (c := c) hk
    have hnew := Controllo.toJson_lookup_eq_none (c := c') hk
    rw [overwrite_of_lookup_none hnew, ofMap, ofMap, hold, hnew]

variable {zone : Zone} {A : Registry} {b : Backend}

/-- What an event leaves alone in the account of its code stays the same in all accounts. -/
theorem update_frame {β : Type} (part : Account → β) {code : String} {a : Account}
    (hpart : part a = part (A code)) (code' : String) :
    part (Function.update A code a code') = part (A code') := by
  by_cases hcode : code' = code
  · subst hcode
    rw [Function.update_self, hpart]
  · rw [Function.update_of_ne hcode]

/-- The documents after the machine of one account changed. -/
theorem document_update (A : Registry) (code : String) (a : Account) (p : Path) :
    Registry.document (Function.update A code a) p =
      if p = [code] then a.machine.map fun m => ofMap (m.record code).toJson
      else A.document p := by
  unfold Registry.document
  split
  · rename_i code'
    by_cases hcode : code' = code
    · subst hcode
      simp
    · simp [hcode]
  · rename_i hp
    rw [if_neg (hp code)]

/-- The documents after an event that leaves the machines alone. -/
theorem document_frame {code : String} {a : Account} (hmachine : a.machine = (A code).machine) :
    Registry.document (Function.update A code a) = A.document := by
  funext p
  rw [document_update, hmachine]
  split
  · rename_i hp
    rw [hp]
    rfl
  · rfl

/-- The machine of one account changes. -/
theorem Represents.machine (hb : Represents zone A b) {code : String} (machine : Option Machine)
    {controlli : Collection}
    (hlookup : ∀ p, controlli.lookup p =
      if p = [code] then machine.map fun m => ofMap (m.record code).toJson
      else b.controlli.lookup p)
    (hplain : ∀ m, machine = some m → docPath code = some [code] ∧
      (m.record code).FourDigitYears) :
    Represents zone (Function.update A code { A code with machine })
      { b with controlli } := by
  have hchecks := update_frame (A := A) (a := { A code with machine }) Account.checks rfl
  have hsheet := update_frame (A := A) (a := { A code with machine }) Account.sheet rfl
  constructor
  · intro p
    rw [document_update]
    dsimp only
    rw [hlookup, hb.machines]
  · simp only [hchecks]
    exact hb.checks
  · simp only [hsheet]
    exact hb.sheets
  · intro code' m hm
    by_cases hcode : code' = code
    · subst hcode
      rw [Function.update_self] at hm
      exact hplain m hm
    · rw [Function.update_of_ne hcode] at hm
      exact hb.plain code' m hm
  · simp only [hchecks]
    exact hb.regular

/-- The checks after a check of one account and day are the new one and those of the other codes
and days. -/
theorem checks_update (A : Registry) (code : String) (day : CivilDate) (k : Check)
    (code' : String) (day' : CivilDate) (k' : Check) :
    (Function.update A code
      { A code with checks := Function.update (A code).checks day (some k) } code').checks
        day' = some k' ↔
      (code' = code ∧ day' = day ∧ k' = k) ∨
        (¬ (code' = code ∧ day' = day) ∧ (A code').checks day' = some k') := by
  by_cases hcode : code' = code
  · subst hcode
    rw [Function.update_self]
    by_cases hday : day' = day
    · subst hday
      simp [eq_comm]
    · simp [hday]
  · simp [hcode]

/-- The check of one account and day changes. -/
theorem Represents.check (hb : Represents zone A b) {code : String} {day : CivilDate} {k : Check}
    (hregular : (k.entry code day).Regular) :
    Represents zone
      (Function.update A code
        { A code with checks := Function.update (A code).checks day (some k) })
      { b with
        registroControlli := setDoc [registroId zone (k.entry code day)] (k.entry code day).toJson
          b.registroControlli } := by
  set a : Account := { A code with checks := Function.update (A code).checks day (some k) } with ha
  have hmachine : ∀ code', (Function.update A code a code').machine = (A code').machine :=
    update_frame Account.machine rfl
  have hsheet : ∀ code', (Function.update A code a code').sheet = (A code').sheet :=
    update_frame Account.sheet rfl
  have hchecks := checks_update A code day k
  rw [← ha] at hchecks
  have hid : ∀ code' day' (k' : Check), (k'.entry code' day').Regular →
      (registroId zone (k'.entry code' day') = registroId zone (k.entry code day) ↔
        code' = code ∧ day' = day) := by
    intro code' day' k' hregular'
    rw [hregular'.registroId_inj hregular (Check.entry_atMidnight _ _ _)
      (Check.entry_atMidnight _ _ _), Check.sameCheck_entry]
  have hdocument : Registry.document (Function.update A code a) = A.document := document_frame rfl
  constructor
  · rw [hdocument]
    exact hb.machines
  · intro p d
    dsimp only
    simp only [hchecks]
    by_cases hp : p = [registroId zone (k.entry code day)]
    · subst hp
      rw [lookup_setDoc, Option.some.injEq]
      constructor
      · rintro rfl
        exact ⟨code, day, k, Or.inl ⟨rfl, rfl, rfl⟩, rfl, rfl⟩
      · rintro ⟨code', day', k', ⟨rfl, rfl, rfl⟩ | ⟨hother, hold⟩, hpath, rfl⟩
        · rfl
        · rw [List.singleton_inj, eq_comm, hid code' day' k' (hb.regular _ _ _ hold)] at hpath
          exact absurd hpath hother
    · rw [lookup_setDoc_ne _ _ hp, hb.checks]
      constructor
      · rintro ⟨code', day', k', hold, rfl, rfl⟩
        refine ⟨code', day', k', Or.inr ⟨?_, hold⟩, rfl, rfl⟩
        rintro hsame
        exact hp (by rw [List.singleton_inj, hid code' day' k' (hb.regular _ _ _ hold)]
                     exact hsame)
      · rintro ⟨code', day', k', ⟨rfl, rfl, rfl⟩ | ⟨_, hold⟩, hpath, rfl⟩
        · exact absurd hpath hp
        · exact ⟨code', day', k', hold, hpath, rfl⟩
  · simp only [hsheet]
    exact hb.sheets
  · simp only [hmachine]
    exact hb.plain
  · intro code' day' k' hk'
    rcases (hchecks code' day' k').mp hk' with ⟨rfl, rfl, rfl⟩ | ⟨_, hold⟩
    · exact hregular
    · exact hb.regular _ _ _ hold

/-- The sheet of one account changes. -/
theorem Represents.sheet (hb : Represents zone A b) {code : String} (hslash : '/' ∉ code.toList)
    (sheet : Option File) :
    Represents zone (Function.update A code { A code with sheet })
      { b with storage := Function.update b.storage (child ("schede/" ++ code)) sheet } := by
  have hmachine := update_frame (A := A) (a := { A code with sheet }) Account.machine rfl
  have hchecks := update_frame (A := A) (a := { A code with sheet }) Account.checks rfl
  have hdocument : Registry.document (Function.update A code { A code with sheet }) =
    A.document := document_frame rfl
  constructor
  · rw [hdocument]
    exact hb.machines
  · simp only [hchecks]
    exact hb.checks
  · intro object file
    dsimp only
    by_cases hobject : object = child ("schede/" ++ code)
    · subst hobject
      rw [Function.update_self]
      constructor
      · intro hfile
        exact ⟨code, hslash, rfl, by rwa [Function.update_self]⟩
      · rintro ⟨code', hslash', hchild, hfile⟩
        obtain rfl := (child_schede_inj_of_notMem hslash hslash').mp hchild
        rwa [Function.update_self] at hfile
    · rw [Function.update_of_ne hobject, hb.sheets]
      refine exists_congr fun code' => and_congr_right fun _ => and_congr_right fun hobject' => ?_
      have hcode : code' ≠ code := by
        rintro rfl
        exact hobject hobject'
      rw [Function.update_of_ne hcode]
  · simp only [hmachine]
    exact hb.plain
  · simp only [hchecks]
    exact hb.regular

/-- **An event does the same to the remote state and to the account.** -/
theorem Represents.store (hb : Represents zone A b) {code : String} {e : Event}
    (hplain : Event.Plain (code, e)) (hcode : ∀ m, e = .put m → docPath code = some [code]) :
    Represents zone (KeyedLog.update Event.apply (code, e) A) (e.store zone code b) := by
  obtain ⟨hslash, hdates⟩ := hplain
  cases e with
  | put m =>
    refine hb.machine (some m) ?_ ?_
    · intro p
      split
      · rename_i hp
        rw [hp, lookup_setDoc]
        rfl
      · rename_i hp
        exact lookup_setDoc_ne _ _ hp
    · rintro _ ⟨⟩
      exact ⟨hcode m rfl, hdates⟩
  | change m =>
    have hold := hb.machines [code]
    refine hb.machine _ ?_ ?_
    · intro p
      split
      · rename_i hp
        subst hp
        cases hmachine : (A code).machine with
        | none =>
          simp only [Registry.document, hmachine, Option.map_none] at hold
          simpa [updateDoc_of_none hold] using hold
        | some m' =>
          simp only [Registry.document, hmachine, Option.map_some] at hold
          rw [lookup_updateDoc hold, overwrite_toJson]
          rfl
      · rename_i hp
        exact lookup_updateDoc_ne _ _ hp
    · intro m' hm'
      obtain ⟨m'', hm'', rfl⟩ := Option.map_eq_some_iff.mp hm'
      exact ⟨(hb.plain code m'' hm'').1, hdates⟩
  | remove =>
    refine hb.machine none ?_ ?_
    · intro p
      split
      · rename_i hp
        rw [hp]
        exact AList.lookup_erase _ b.controlli
      · rename_i hp
        exact AList.lookup_erase_ne hp
    · rintro _ ⟨⟩
  | check day k => exact hb.check ⟨hslash, hdates⟩
  | attach file => exact hb.sheet hslash (some file)
  | detach => exact hb.sheet hslash none

/-! ## What a step does to the remote state -/

/-- The remote state after a log of events, newest first. -/
def storeAll (zone : Zone) (log : List (String × Event)) (b : Backend) : Backend :=
  log.foldr (fun e b => e.2.store zone e.1 b) b

/-- A log of events does the same to the remote state and to the registry. -/
theorem Represents.storeAll (hb : Represents zone A b) {log : List (String × Event)}
    (hplain : ∀ e ∈ log, Event.Plain e)
    (hcode : ∀ code m, (code, .put m) ∈ log → docPath code = some [code]) :
    Represents zone (A.replay log) (storeAll zone log b) := by
  induction log with
  | nil => exact hb
  | cons e log ih =>
    refine (ih (fun e' he' => hplain e' (List.mem_cons_of_mem _ he'))
      fun code m hm => hcode code m (List.mem_cons_of_mem _ hm)).store
        (hplain e List.mem_cons_self) ?_
    intro m hm
    exact hcode e.1 m (by rw [← hm]; exact List.mem_cons_self)

/-- A plain text that addresses a document is its identifier. -/
theorem docPath_of_plain {code : String} {p : Path} (hslash : '/' ∉ code.toList)
    (hpath : docPath code = some p) : docPath code = some [code] := by
  refine docPath_of_notMem ?_ hslash
  rintro rfl
  cases hpath

/-- The event of a handler that writes a record. -/
theorem storeAll_recordEvent (write : Path → MapLiteral → Collection → Collection)
    {kind : Machine → Event} {w : Option (Path × Controllo)} {controlli : Collection}
    (hafter : controlli =
      match w with
      | none => b.controlli
      | some (p, c) => write p c.toJson b.controlli)
    (hkind : ∀ m code, (kind m).store zone code b =
      { b with controlli := write [code] (m.record code).toJson b.controlli })
    (hw : ∀ p c, w = some (p, c) → docPath c.cod = some p ∧ c.scheda = "schede/" ++ c.cod)
    (hplain : ∀ e ∈ recordEvent kind w, '/' ∉ e.1.toList) :
    storeAll zone (recordEvent kind w) b = { b with controlli } := by
  rw [hafter]
  rcases w with _ | ⟨p, c⟩
  · rfl
  · obtain ⟨hpath, hscheda⟩ := hw p c rfl
    have hslash : '/' ∉ c.cod.toList := hplain _ List.mem_cons_self
    obtain rfl : [c.cod] = p := Option.some.inj ((docPath_of_plain hslash hpath).symm.trans hpath)
    change (kind (.ofControllo c)).store zone c.cod b = _
    rw [hkind, Machine.toJson_record hscheda]

/-- The event of a handler that stores a file. -/
theorem storeAll_fileEvent {codice : String} {w : Option (String × File)}
    (hw : ∀ path x, w = some (path, x) → path = "schede/" ++ codice) :
    storeAll zone (fileEvent codice w) b =
      { b with storage := afterUpload b.storage w } := by
  rcases w with _ | ⟨path, x⟩
  · rfl
  · rw [hw path x rfl]
    rfl

/-- The event of a handler that registers an entry. -/
theorem storeAll_entryEvent {w : Option (Path × RegistroControllo)} {registroControlli : Collection}
    (hafter : registroControlli =
      match w with
      | none => b.registroControlli
      | some (p, r) => setDoc p r.toJson b.registroControlli)
    (hw : ∀ p r, w = some (p, r) → docPath (registroId zone r) = some p ∧ r.AtMidnight)
    (hplain : ∀ e ∈ entryEvent w, Event.Plain e) :
    storeAll zone (entryEvent w) b = { b with registroControlli } := by
  rw [hafter]
  rcases w with _ | ⟨p, r⟩
  · rfl
  · obtain ⟨hpath, hmidnight⟩ := hw p r rfl
    obtain ⟨hslash, hyear⟩ := hplain _ List.mem_cons_self
    have hregular : r.Regular := ⟨hslash, hyear⟩
    obtain rfl : [registroId zone r] = p :=
      Option.some.inj ((hregular.docPath hmidnight zone).symm.trans hpath)
    change Event.store zone r.codice b (.check _ _) = _
    rw [Event.store, Check.entry_of_midnight hmidnight]

/-- A newer log is stored after an older one. -/
theorem storeAll_append (log log' : List (String × Event)) :
    storeAll zone (log ++ log') b = storeAll zone log (storeAll zone log' b) := List.foldr_append

/-- The handler of a form that writes a record and then stores a file. -/
theorem storeAll_file_record (write : Path → MapLiteral → Collection → Collection)
    {kind : Machine → Event} {b' : Backend} {codice : String} {u : Option (String × File)}
    {w : Option (Path × Controllo)}
    (hcontrolli : b'.controlli =
      match w with
      | none => b.controlli
      | some (p, c) => write p c.toJson b.controlli)
    (hregistro : b'.registroControlli = b.registroControlli)
    (hstorage : b'.storage = afterUpload b.storage u)
    (hkind : ∀ m code, (kind m).store zone code b =
      { b with controlli := write [code] (m.record code).toJson b.controlli })
    (hw : ∀ p c, w = some (p, c) → docPath c.cod = some p ∧ c.scheda = "schede/" ++ c.cod)
    (hu : ∀ path x, u = some (path, x) → path = "schede/" ++ codice)
    (hplain : ∀ e ∈ fileEvent codice u ++ recordEvent kind w, Event.Plain e) :
    b' = storeAll zone (fileEvent codice u ++ recordEvent kind w) b := by
  have hslash : ∀ e ∈ recordEvent kind w, '/' ∉ e.1.toList :=
    fun e he => (hplain e (List.mem_append_right _ he)).1
  rw [storeAll_append, storeAll_recordEvent write hcontrolli hkind hw hslash, storeAll_fileEvent hu,
    ← hregistro, ← hstorage]

namespace Confirms

/-- The records held by screens have their sheets under their codes. -/
def HeldSheets (s : State) : Prop :=
  ∀ r ∈ s.readings, r.controllo.scheda = "schede/" ++ r.controllo.cod

/-- What the handler of an `Add` writes and stores. -/
theorem add_spec {f : Add} :
    (∀ oSet p c, f.writes oSet = some (p, c) →
      docPath c.cod = some p ∧ c.scheda = "schede/" ++ c.cod) ∧
    ∀ oPut path x, f.uploads oPut = some (path, x) → path = "schede/" ++ f.codice := by
  constructor
  · intro oSet p c hwrites
    obtain ⟨hform, _, hpath⟩ := Add.writes_eq_some.mp hwrites
    obtain ⟨_, _, hcod, _, _, _, hscheda⟩ := Add.controllo_eq_some.mp hform
    exact ⟨hpath, by rw [hscheda, hcod]⟩
  · intro oPut path x hupload
    obtain ⟨_, _, hupload⟩ := Option.bind_eq_some_iff.mp hupload
    exact uploaded_path hupload

/-- What the handler of an edit writes and stores. -/
theorem edit_spec {f : EditControl} :
    (∀ oUpdate p c, f.writes oUpdate = some (p, c) →
      docPath c.cod = some p ∧ c.scheda = "schede/" ++ c.cod) ∧
    ∀ oPut path x, f.uploads oPut = some (path, x) → path = "schede/" ++ f.codice := by
  constructor
  · intro oUpdate p c hwrites
    obtain ⟨hform, _, hpath⟩ := EditControl.writes_eq_some.mp hwrites
    obtain ⟨_, _, hcod, _, _, _, hscheda⟩ := EditControl.controllo_eq_some.mp hform
    exact ⟨hpath, by rw [hscheda, hcod]⟩
  · intro oPut path x hupload
    obtain ⟨_, _, hupload⟩ := Option.bind_eq_some_iff.mp hupload
    exact uploaded_path hupload

/-- The record that a check writes has its sheet where the record held by the screen has it. -/
theorem check_writes {widget c : Controllo} {f : ControlCheck} {oUpdate : Outcome} {p : Path}
    (hwidget : widget.scheda = "schede/" ++ widget.cod)
    (hwrites : f.writes oUpdate widget = some (p, c)) :
    docPath c.cod = some p ∧ c.scheda = "schede/" ++ c.cod := by
  obtain ⟨_, _, hc, _, hpath⟩ := ControlCheck.writes_eq_some.mp hwrites
  rw [hc]
  exact ⟨hpath, hwidget⟩

/-- A deletion that the server accepts removes the document and, where there is one, the
sheet. -/
theorem delete_eq (oDoc oFile : Outcome) (c : String) (b : Backend) :
    (deleteControllo oDoc oFile c b).2 =
      match writtenPath oDoc c with
      | none => b
      | some p =>
        { b with
          controlli := b.controlli.erase p
          storage :=
            if oFile = .success then Function.update b.storage (child ("schede/" ++ c)) none
            else b.storage } := by
  unfold deleteControllo
  split
  · rename_i hpath
    simp [writtenPath, hpath]
  · simp [writtenPath]
  · rename_i p hpath
    simp only [writtenPath, hpath, if_true]
    cases hfile : b.storage (child ("schede/" ++ c)) with
    | none =>
      have hsame : Function.update b.storage (child ("schede/" ++ c)) none = b.storage := by
        rw [← hfile, Function.update_eq_self]
      simp [hsame]
    | some x => cases oFile <;> simp

/-- The handler of a check registers an entry and then writes the record. -/
theorem storeAll_check {f : ControlCheck} {widget : Controllo} {oRegistro oUpdate : Outcome}
    (hwidget : widget.scheda = "schede/" ++ widget.cod)
    (hregisters : ∀ p e, f.registers zone oRegistro widget = some (p, e) →
      docPath (registroId zone e) = some p ∧ e.AtMidnight)
    (hplain : ∀ e ∈ recordEvent .change (f.writes oUpdate widget) ++
      entryEvent (f.registers zone oRegistro widget), Event.Plain e) :
    (f.conferma zone oRegistro oUpdate widget b).2 =
      storeAll zone (recordEvent .change (f.writes oUpdate widget) ++
        entryEvent (f.registers zone oRegistro widget)) b := by
  have hregistro := storeAll_entryEvent
    (ControlCheck.conferma_registro zone oRegistro oUpdate widget f b) hregisters
    fun e he => hplain e (List.mem_append_right _ he)
  have hcontrolli : storeAll zone (recordEvent .change (f.writes oUpdate widget))
      { b with
        registroControlli :=
          (f.conferma zone oRegistro oUpdate widget b).2.registroControlli } = _ :=
    storeAll_recordEvent updateDoc
      (ControlCheck.conferma_controlli zone oRegistro oUpdate widget f b)
      (fun _ _ => rfl) (fun p c => check_writes hwidget)
      fun e he => (hplain e (List.mem_append_left _ he)).1
  rw [storeAll_append, hregistro, hcontrolli,
    ← ControlCheck.conferma_storage zone oRegistro oUpdate widget f b]

/-- A plain deletion stores its events. -/
theorem storeAll_delete {s : State} {oDoc oFile : Outcome} {c : String}
    (hplain : PlainStep zone s (.delete c oDoc oFile)) :
    (deleteControllo oDoc oFile c s.backend).2 =
      storeAll zone (events zone s (.delete c oDoc oFile)) s.backend := by
  have hevents : events zone s (.delete c oDoc oFile) =
      match writtenPath oDoc c with
      | none => []
      | some _ => if oFile = .success then [(c, .detach), (c, .remove)] else [(c, .remove)] := rfl
  rw [PlainStep, hevents] at hplain
  rw [hevents, delete_eq]
  cases hpath : writtenPath oDoc c with
  | none => rfl
  | some p =>
    simp only [hpath] at hplain
    have hslash : '/' ∉ c.toList := by
      refine (hplain (c, .remove) ?_).1
      split <;> simp
    obtain ⟨_, hdoc⟩ := writtenPath_eq_some.mp hpath
    obtain rfl : [c] = p := Option.some.inj ((docPath_of_plain hslash hdoc).symm.trans hdoc)
    dsimp only
    split <;> rfl

/-- **What a plain step does to the remote state.** It stores the events of the step. -/
theorem step_backend {s t : State} {a : Action} (hheld : HeldSheets s)
    (hplain : PlainStep zone s a) (hstep : step zone s a = some t) :
    t.backend = storeAll zone (events zone s a) s.backend := by
  cases step_spec hstep with
  | read _ => rfl
  | @add c actions oSet oPut f hf =>
    have hevents : events zone s (.add c actions oSet oPut) =
        fileEvent f.codice (f.uploads oPut) ++ recordEvent .put (f.writes oSet) := by
      simp [events, hf]
    rw [PlainStep, hevents] at hplain
    rw [hevents]
    exact storeAll_file_record setDoc (Add.conferma_controlli f oSet oPut s.backend)
      (Add.conferma_registro f oSet oPut s.backend) (Add.conferma_storage f oSet oPut s.backend)
      (fun _ _ => rfl) (add_spec.1 oSet) (add_spec.2 oPut) hplain
  | @edit i actions oUpdate oPut r f hr hf =>
    have hevents : events zone s (.edit i actions oUpdate oPut) =
        fileEvent f.codice (f.uploads oPut) ++ recordEvent .change (f.writes oUpdate) := by
      simp [events, hr, hf]
    rw [PlainStep, hevents] at hplain
    rw [hevents]
    exact storeAll_file_record updateDoc
      (EditControl.conferma_controlli f oUpdate oPut s.backend)
      (EditControl.conferma_registro f oUpdate oPut s.backend)
      (EditControl.conferma_storage f oUpdate oPut s.backend)
      (fun _ _ => rfl) (edit_spec.1 oUpdate) (edit_spec.2 oPut) hplain
  | @check i actions oRegistro oUpdate r f hr hf =>
    have hevents : events zone s (.check i actions oRegistro oUpdate) =
        recordEvent .change (f.writes oUpdate r.controllo) ++
          entryEvent (f.registers zone oRegistro r.controllo) := by
      simp [events, hr, hf]
    rw [PlainStep, hevents] at hplain
    have hregisters : ∀ p e, f.registers zone oRegistro r.controllo = some (p, e) →
        docPath (registroId zone e) = some p ∧ e.AtMidnight := by
      intro p e hregister
      have hregistered : registered zone s (.check i actions oRegistro oUpdate) = some (p, e) :=
        registered_check.mpr ⟨r, f, hr, hf, hregister⟩
      exact ⟨(registered_spec hregistered).1, registered_midnight hregistered⟩
    rw [hevents]
    exact storeAll_check (hheld r (List.mem_of_getElem? hr)) hregisters hplain
  | @delete c oDoc oFile => exact storeAll_delete hplain

/-- A machine is registered by an `Add`, whose code addresses a document. -/
theorem docPath_of_put {s : State} {a : Action} {code : String} {m : Machine}
    (hput : (code, .put m) ∈ events zone s a) : (docPath code).isSome := by
  cases a with
  | read p h => cases hput
  | add c actions oSet oPut =>
    cases hf : Add.session c actions with
    | none => simp [events, hf] at hput
    | some f =>
      simp only [events, hf, List.mem_append, mem_fileEvent, mem_recordEvent, Prod.mk.injEq,
        reduceCtorEq, and_false, exists_false, false_or] at hput
      obtain ⟨p, c', hwrites, rfl, _⟩ := hput
      rw [(add_spec.1 oSet p c' hwrites).1]
      rfl
  | edit i actions oUpdate oPut =>
    simp only [events] at hput
    split at hput
    · cases hput
    · simp [mem_fileEvent, mem_recordEvent] at hput
  | check i actions oRegistro oUpdate =>
    simp only [events] at hput
    split at hput
    · simp [mem_entryEvent, mem_recordEvent] at hput
    · cases hput
  | delete c oDoc oFile =>
    simp only [events] at hput
    split at hput
    · cases hput
    · split at hput <;> simp at hput

/-- The records that are held keep their sheets under their codes, since no document has
a path of its own for the sheet. -/
theorem HeldSheets.step {s t : State} {a : Action} (hheld : HeldSheets s)
    (hb : Represents zone A s.backend) (hstep : step zone s a = some t) : HeldSheets t := by
  rcases step_readings hstep with hsame | ⟨r, _, hdoc, hnew⟩
  · rw [HeldSheets, hsame]
    exact hheld
  · rw [HeldSheets, hnew]
    intro r' hr'
    rcases List.mem_cons.mp hr' with rfl | hr'
    · obtain ⟨code, m, hdata⟩ : ∃ code m, r'.data = ofMap (Machine.record code m).toJson := by
        rw [hb.machines] at hdoc
        unfold Registry.document at hdoc
        split at hdoc
        · obtain ⟨m, _, hm⟩ := Option.map_eq_some_iff.mp hdoc
          exact ⟨_, m, hm.symm⟩
        · cases hdoc
      obtain ⟨_, _, _, _, _, _, hscheda⟩ := Controllo.fromSnapshot_spec r'.decodes
      rw [hdata] at hscheda
      have hnone : ofMap (Machine.record code m).toJson "schedaControllo" = none := rfl
      rw [hnone] at hscheda
      simpa [asNullableString] using hscheda.symm
    · exact hheld r' hr'

/-- The remote state represents a registry, and the records held by screens have their
sheets under their codes. -/
structure StateRepresents (zone : Zone) (A : Registry) (s : State) : Prop where
  /-- The remote state represents the registry. -/
  backend : Represents zone A s.backend
  /-- The records held by screens have their sheets under their codes. -/
  readings : HeldSheets s

/-- **One plain step replays its events.** -/
theorem StateRepresents.step {s t : State} {a : Action} (hs : StateRepresents zone A s)
    (hplain : PlainStep zone s a) (hstep : Confirms.step zone s a = some t) :
    StateRepresents zone (A.replay (events zone s a)) t := by
  refine ⟨?_, hs.readings.step hs.backend hstep⟩
  rw [step_backend hs.readings hplain hstep]
  refine hs.backend.storeAll hplain ?_
  intro code m hput
  obtain ⟨p, hp⟩ := Option.isSome_iff_exists.mp (docPath_of_put hput)
  exact docPath_of_plain (hplain _ hput).1 hp

/-- **Every plain run replays its events.** -/
theorem represents_run {hist : List (State × Action)} {t : State}
    (hrun : Run (step zone) State.start hist t) (hplain : Steps (PlainStep zone) hist) :
    Represents zone (Registry.empty.replay (eventLog zone hist)) t.backend := by
  have hstart : StateRepresents zone Registry.empty State.start :=
    ⟨represents_empty zone, by simp [HeldSheets, State.start]⟩
  exact (KeyedLog.represents_replay hrun hplain hstart
    fun _ _ _ _ hs hgood hstep => hs.step hgood hstep).backend

end Confirms

end EthosApp
