import EthosApp.Lib.Runs
import EthosApp.Screens.AddControl
import EthosApp.Screens.CheckControl
import EthosApp.Screens.EditControl

/-!
# Reads and confirms

The stored machines and the register change by the handlers of the three forms and by
`deleteControllo`. Any number of clients hold records that they read at any earlier
time, since a screen keeps the record it was opened with. One step is a read or one
confirmed form, with the actions that filled the form and the server's answers.
-/

namespace EthosApp

open Dart Firestore DocStore

/-- A record held by a screen, with the document it was decoded from. -/
structure Reading where
  /-- The path of the document. -/
  path : Path
  /-- The document as it was when it was read. -/
  data : Doc
  /-- The hour the reader passed. -/
  hour : Hour
  /-- The decoded record. -/
  controllo : Controllo
  /-- The record is what the document decodes to. -/
  decodes : Controllo.fromSnapshot data hour.text = some controllo

/-- Read and decode a stored document. -/
def Reading.ofBackend (b : Backend) (p : Path) (h : Hour) : Option Reading :=
  match b.controlli.lookup p with
  | none => none
  | some d =>
    match hdecodes : Controllo.fromSnapshot d h.text with
    | none => none
    | some c => some ⟨p, d, h, c, hdecodes⟩

/-- A reading holds the document that was stored. -/
theorem Reading.ofBackend_eq_some {b : Backend} {p : Path} {h : Hour} {r : Reading}
    (hread : Reading.ofBackend b p h = some r) :
    r.path = p ∧ r.hour = h ∧ b.controlli.lookup p = some r.data := by
  unfold ofBackend at hread
  split at hread
  · cases hread
  · rename_i d hd
    split at hread
    · cases hread
    · cases hread
      exact ⟨rfl, rfl, hd⟩

/-- A stored document that decodes to a record can be read. -/
theorem Reading.exists_ofBackend {b : Backend} {p : Path} {h : Hour} {d : Doc} {c : Controllo}
    (hdoc : b.controlli.lookup p = some d) (hdecodes : Controllo.fromSnapshot d h.text = some c) :
    ∃ r, Reading.ofBackend b p h = some r ∧ r.controllo = c := by
  unfold ofBackend
  split
  · rename_i hnone
    rw [hdoc] at hnone
    cases hnone
  · rename_i d' hd'
    obtain rfl : d = d' := Option.some.inj (hdoc.symm.trans hd')
    split
    · rename_i hnone
      rw [hdecodes] at hnone
      cases hnone
    · rename_i c' hc'
      exact ⟨_, rfl, Option.some.inj (hc'.symm.trans hdecodes)⟩

namespace Confirms

/-- The remote state, and the records read so far. -/
structure State where
  /-- The remote state. -/
  backend : Backend
  /-- The records held by screens, newest first. -/
  readings : List Reading

/-- The state before any use of the app. -/
def State.start : State := ⟨Backend.empty, []⟩

/-- A read of a document, or a confirmed handler with the answers of the server. An
edit or a check is opened on one of the records held. -/
inductive Action
  | read (p : Path) (h : Hour)
  | add (c : String) (actions : List Add.Action) (oSet oPut : Outcome)
  | edit (i : ℕ) (actions : List EditControl.Action) (oUpdate oPut : Outcome)
  | check (i : ℕ) (actions : List ControlCheck.Action) (oRegistro oUpdate : Outcome)
  | delete (c : String) (oDoc oFile : Outcome)

/-- Whether a handler sets a document, rather than updating one that exists. -/
def Action.creates : Action → Bool
  | .add _ _ _ _ => true
  | _ => false

/-- One step. -/
def step (zone : Zone) (s : State) : Action → Option State
  | .read p h => do
    let r ← Reading.ofBackend s.backend p h
    return { s with readings := r :: s.readings }
  | .add c actions oSet oPut => do
    let f ← Add.session c actions
    return { s with backend := (f.conferma oSet oPut s.backend).2 }
  | .edit i actions oUpdate oPut => do
    let r ← s.readings[i]?
    let f ← EditControl.session r.controllo actions
    return { s with backend := (f.conferma oUpdate oPut s.backend).2 }
  | .check i actions oRegistro oUpdate => do
    let r ← s.readings[i]?
    let f ← ControlCheck.session actions
    return { s with backend := (f.conferma zone oRegistro oUpdate r.controllo s.backend).2 }
  | .delete c oDoc oFile =>
    some { s with backend := (deleteControllo oDoc oFile c s.backend).2 }

/-- The record that a step stores, with its document. An update of a missing document
stores nothing. -/
def written (s : State) : Action → Option (Path × Controllo)
  | .add c actions oSet _ => (Add.session c actions).bind fun f => f.writes oSet
  | .edit i actions oUpdate _ => do
    let r ← s.readings[i]?
    let f ← EditControl.session r.controllo actions
    (f.writes oUpdate).filter fun w => (s.backend.controlli.lookup w.1).isSome
  | .check i actions _ oUpdate => do
    let r ← s.readings[i]?
    let f ← ControlCheck.session actions
    (f.writes oUpdate r.controllo).filter fun w => (s.backend.controlli.lookup w.1).isSome
  | .read _ _ => none
  | .delete _ _ _ => none

/-- The two date fields of a confirmed form. -/
def fields (s : State) : Action → Option (DateTimeField × DateTimeField)
  | .add c actions _ _ =>
    (Add.session c actions).map fun f => (f.dataUltimoControllo, f.dataProssimoControllo)
  | .edit i actions _ _ => do
    let r ← s.readings[i]?
    let f ← EditControl.session r.controllo actions
    return (f.dataUltimoControllo, f.dataProssimoControllo)
  | .check _ actions _ _ =>
    (ControlCheck.session actions).map fun f => (f.dataControllo, f.dataProssimo)
  | .read _ _ => none
  | .delete _ _ _ => none

/-- The entry that a step puts in the register, with its document. -/
def registered (zone : Zone) (s : State) : Action → Option (Path × RegistroControllo)
  | .check i actions oRegistro _ => do
    let r ← s.readings[i]?
    let f ← ControlCheck.session actions
    f.registers zone oRegistro r.controllo
  | _ => none

/-! ## What a step does, stores and registers -/

/-- What a step does to the state: one case for each action. -/
inductive StepSpec (zone : Zone) (s : State) : Action → State → Prop
  /-- A record that could be read is held. -/
  | read {p : Path} {h : Hour} {r : Reading} (hread : Reading.ofBackend s.backend p h = some r) :
      StepSpec zone s (.read p h) { s with readings := r :: s.readings }
  /-- The handler of a valid `Add` form runs. -/
  | add {c : String} {actions : List Add.Action} {oSet oPut : Outcome} {f : Add}
      (hf : Add.session c actions = some f) :
      StepSpec zone s (.add c actions oSet oPut)
        { s with backend := (f.conferma oSet oPut s.backend).2 }
  /-- The handler of a valid `EditControl` form runs. -/
  | edit {i : ℕ} {actions : List EditControl.Action} {oUpdate oPut : Outcome} {r : Reading}
      {f : EditControl} (hr : s.readings[i]? = some r)
      (hf : EditControl.session r.controllo actions = some f) :
      StepSpec zone s (.edit i actions oUpdate oPut)
        { s with backend := (f.conferma oUpdate oPut s.backend).2 }
  /-- The handler of a valid `ControlCheck` form runs. -/
  | check {i : ℕ} {actions : List ControlCheck.Action} {oRegistro oUpdate : Outcome} {r : Reading}
      {f : ControlCheck} (hr : s.readings[i]? = some r)
      (hf : ControlCheck.session actions = some f) :
      StepSpec zone s (.check i actions oRegistro oUpdate)
        { s with backend := (f.conferma zone oRegistro oUpdate r.controllo s.backend).2 }
  /-- A machine is deleted. -/
  | delete {c : String} {oDoc oFile : Outcome} :
      StepSpec zone s (.delete c oDoc oFile)
        { s with backend := (deleteControllo oDoc oFile c s.backend).2 }

/-- Every possible step acts as its action says. -/
theorem step_spec {zone : Zone} {s t : State} {a : Action} (h : step zone s a = some t) :
    StepSpec zone s a t := by
  cases a with
  | delete c oDoc oFile =>
    cases h
    exact .delete
  | read p hour =>
    simp only [step, Option.bind_eq_bind, Option.bind_eq_some_iff, Option.pure_def,
      Option.some.injEq] at h
    obtain ⟨r, hread, rfl⟩ := h
    exact .read hread
  | add c actions oSet oPut =>
    simp only [step, Option.bind_eq_bind, Option.bind_eq_some_iff, Option.pure_def,
      Option.some.injEq] at h
    obtain ⟨f, hf, rfl⟩ := h
    exact .add hf
  | edit i actions oUpdate oPut =>
    simp only [step, Option.bind_eq_bind, Option.bind_eq_some_iff, Option.pure_def,
      Option.some.injEq] at h
    obtain ⟨r, hr, f, hf, rfl⟩ := h
    exact .edit hr hf
  | check i actions oRegistro oUpdate =>
    simp only [step, Option.bind_eq_bind, Option.bind_eq_some_iff, Option.pure_def,
      Option.some.injEq] at h
    obtain ⟨r, hr, f, hf, rfl⟩ := h
    exact .check hr hf

/-- What an `Add` stores. -/
theorem written_add {s : State} {c : String} {actions : List Add.Action} {oSet oPut : Outcome}
    {w : Path × Controllo} : written s (.add c actions oSet oPut) = some w ↔
      ∃ f, Add.session c actions = some f ∧ f.writes oSet = some w :=
  Option.bind_eq_some_iff

/-- What an edit stores: the record of its form, over a document that exists. -/
theorem written_edit {s : State} {i : ℕ} {actions : List EditControl.Action}
    {oUpdate oPut : Outcome} {w : Path × Controllo} :
    written s (.edit i actions oUpdate oPut) = some w ↔
      ∃ r f, s.readings[i]? = some r ∧ EditControl.session r.controllo actions = some f ∧
        f.writes oUpdate = some w ∧ (s.backend.controlli.lookup w.1).isSome := by
  simp only [written, Option.bind_eq_bind, Option.bind_eq_some_iff, Option.filter_eq_some_iff]
  grind

/-- What a check stores: the record of its form, over a document that exists. -/
theorem written_check {s : State} {i : ℕ} {actions : List ControlCheck.Action}
    {oRegistro oUpdate : Outcome} {w : Path × Controllo} :
    written s (.check i actions oRegistro oUpdate) = some w ↔
      ∃ r f, s.readings[i]? = some r ∧ ControlCheck.session actions = some f ∧
        f.writes oUpdate r.controllo = some w ∧ (s.backend.controlli.lookup w.1).isSome := by
  simp only [written, Option.bind_eq_bind, Option.bind_eq_some_iff, Option.filter_eq_some_iff]
  grind

/-- What a check registers. -/
theorem registered_check {zone : Zone} {s : State} {i : ℕ} {actions : List ControlCheck.Action}
    {oRegistro oUpdate : Outcome} {w : Path × RegistroControllo} :
    registered zone s (.check i actions oRegistro oUpdate) = some w ↔
      ∃ r f, s.readings[i]? = some r ∧ ControlCheck.session actions = some f ∧
        f.registers zone oRegistro r.controllo = some w := by
  simp only [registered, Option.bind_eq_bind, Option.bind_eq_some_iff]
  grind

/-- A stored record addresses its document by its code, and its dates were parsed from
the two fields of the form. -/
theorem written_spec {s : State} {a : Action} {p : Path} {c : Controllo}
    (hwritten : written s a = some (p, c)) :
    docPath c.cod = some p ∧ ∃ u v, fields s a = some (u, v) ∧
      u.parsed = some c.dataUltimoControllo ∧ v.parsed = some c.dataProssimoControllo := by
  cases a with
  | read p hour => cases hwritten
  | delete c oDoc oFile => cases hwritten
  | add code actions oSet oPut =>
    obtain ⟨f, hf, hwrites⟩ := written_add.mp hwritten
    obtain ⟨hform, _, hpath⟩ := Add.writes_eq_some.mp hwrites
    obtain ⟨hu, hv, _⟩ := Add.controllo_eq_some.mp hform
    exact ⟨hpath, _, _, by rw [fields, hf]; rfl, hu, hv⟩
  | edit i actions oUpdate oPut =>
    obtain ⟨r, f, hr, hf, hwrites, _⟩ := written_edit.mp hwritten
    obtain ⟨hform, _, hpath⟩ := EditControl.writes_eq_some.mp hwrites
    obtain ⟨hu, hv, _⟩ := EditControl.controllo_eq_some.mp hform
    exact ⟨hpath, _, _, by simp [fields, hr, hf], hu, hv⟩
  | check i actions oRegistro oUpdate =>
    obtain ⟨_, f, _, hf, hwrites, _⟩ := written_check.mp hwritten
    obtain ⟨hu, hv, hc, _, hpath⟩ := ControlCheck.writes_eq_some.mp hwrites
    refine ⟨?_, _, _, by rw [fields, hf]; rfl, hu, hv⟩
    rw [hc]
    exact hpath

/-- A registered entry is that of a valid check form, whose date was parsed. -/
theorem registered_spec {zone : Zone} {s : State} {a : Action} {p : Path} {r : RegistroControllo}
    (hregistered : registered zone s a = some (p, r)) :
    docPath (registroId zone r) = some p ∧ ∃ u : DateTimeField,
      u.parsed = some r.dataControllo ∧ (DateFormat.parse u.text).isSome := by
  cases a with
  | check i actions oRegistro oUpdate =>
    obtain ⟨_, f, _, hf, hregisters⟩ := registered_check.mp hregistered
    obtain ⟨hu, _, _, hpath⟩ := ControlCheck.registers_eq_some.mp hregisters
    exact ⟨hpath, _, hu, (ControlCheck.session_accepted hf).1⟩
  | _ => cases hregistered

/-! ## What a step does to the collections -/

/-- The machines after a handler that updates one of them. -/
theorem update_cases {w : Option (Path × Controllo)} {controlli controlli' : Collection}
    (hupdate : controlli' =
      match w with
      | none => controlli
      | some (p, c) => updateDoc p c.toJson controlli) :
    (w.filter (fun w => (controlli.lookup w.1).isSome) = none ∧ controlli' = controlli) ∨
    ∃ p c d, w.filter (fun w => (controlli.lookup w.1).isSome) = some (p, c) ∧
      controlli.lookup p = some d ∧ controlli' = controlli.insert p (overwrite d c.toJson) := by
  rcases w with _ | ⟨p, c⟩
  · exact Or.inl ⟨rfl, hupdate⟩
  · cases hdoc : controlli.lookup p with
    | none =>
      refine Or.inl ⟨by simp [hdoc], ?_⟩
      rw [hupdate]
      exact updateDoc_of_none hdoc
    | some d =>
      refine Or.inr ⟨p, c, d, by simp [hdoc], hdoc, ?_⟩
      rw [hupdate]
      exact updateDoc_of_lookup hdoc

/-- **What a step does to the machines.** Either no record is stored, and at most one
document is removed, or the stored record is written over the older document or over
nothing. -/
theorem step_controlli {zone : Zone} {s t : State} {a : Action} (h : step zone s a = some t) :
    (written s a = none ∧ (t.backend.controlli = s.backend.controlli ∨
      ∃ p, t.backend.controlli = s.backend.controlli.erase p)) ∨
    ∃ p c d, written s a = some (p, c) ∧
      ((a.creates = true ∧ d = fun _ => none) ∨ s.backend.controlli.lookup p = some d) ∧
      t.backend.controlli = s.backend.controlli.insert p (overwrite d c.toJson) := by
  cases step_spec h with
  | read _ => exact Or.inl ⟨rfl, Or.inl rfl⟩
  | @add c actions oSet oPut f hf =>
    have hcontrolli := Add.conferma_controlli f oSet oPut s.backend
    cases hw : f.writes oSet with
    | none =>
      rw [hw] at hcontrolli
      exact Or.inl ⟨by simp [written, hf, hw], Or.inl hcontrolli⟩
    | some w =>
      obtain ⟨p, c⟩ := w
      rw [hw] at hcontrolli
      refine Or.inr ⟨p, c, _, written_add.mpr ⟨f, hf, hw⟩, Or.inl ⟨rfl, rfl⟩, ?_⟩
      rw [← ofMap_eq_overwrite]
      exact hcontrolli
  | @edit i actions oUpdate oPut r f hr hf =>
    have hwritten : written s (.edit i actions oUpdate oPut) =
        (f.writes oUpdate).filter fun w => (s.backend.controlli.lookup w.1).isSome := by
      simp [written, hr, hf]
    rw [hwritten]
    rcases update_cases (EditControl.conferma_controlli f oUpdate oPut s.backend) with
      ⟨hnone, hsame⟩ | ⟨p, c, d, hsome, hdoc, hafter⟩
    · exact Or.inl ⟨hnone, Or.inl hsame⟩
    · exact Or.inr ⟨p, c, d, hsome, Or.inr hdoc, hafter⟩
  | @check i actions oRegistro oUpdate r f hr hf =>
    have hwritten : written s (.check i actions oRegistro oUpdate) =
        (f.writes oUpdate r.controllo).filter
          fun w => (s.backend.controlli.lookup w.1).isSome := by
      simp [written, hr, hf]
    rw [hwritten]
    rcases update_cases (ControlCheck.conferma_controlli zone oRegistro oUpdate r.controllo f
      s.backend) with ⟨hnone, hsame⟩ | ⟨p, c, d, hsome, hdoc, hafter⟩
    · exact Or.inl ⟨hnone, Or.inl hsame⟩
    · exact Or.inr ⟨p, c, d, hsome, Or.inr hdoc, hafter⟩
  | @delete c oDoc oFile =>
    refine Or.inl ⟨rfl, ?_⟩
    unfold deleteControllo
    split
    · exact Or.inl rfl
    · exact Or.inl rfl
    · rename_i p _
      refine Or.inr ⟨p, ?_⟩
      dsimp only
      split <;> rfl

/-- A confirmed edit or check that stores a record writes it over a document that exists. -/
theorem update_over {zone : Zone} {s t : State} {a : Action} {p : Path} {c : Controllo}
    (h : step zone s a = some t) (hcreates : a.creates = false)
    (hwritten : written s a = some (p, c)) :
    ∃ d, s.backend.controlli.lookup p = some d ∧
      t.backend.controlli = s.backend.controlli.insert p (overwrite d c.toJson) := by
  rcases step_controlli h with ⟨hnone, _⟩ | ⟨p', c', d, hsome, hold, hafter⟩
  · rw [hwritten] at hnone
    cases hnone
  · rw [hwritten] at hsome
    cases hsome
    rcases hold with ⟨hcreates', _⟩ | hold
    · rw [hcreates] at hcreates'
      cases hcreates'
    · exact ⟨d, hold, hafter⟩

/-- If a record written over a document gives it a property exactly under a condition on
the record, a step keeps the property of all machines exactly when the record that it
stores meets the condition. -/
theorem allDocs_step_iff {zone : Zone} {s t : State} {a : Action} {P : Path → Doc → Prop}
    {Q : Controllo → Prop} (hbefore : AllDocs P s.backend.controlli)
    (hstep : step zone s a = some t)
    (hwrite : ∀ p c d, written s a = some (p, c) →
      (d = (fun _ => none) ∨ s.backend.controlli.lookup p = some d) →
      (P p (overwrite d c.toJson) ↔ Q c)) :
    AllDocs P t.backend.controlli ↔ ∀ w ∈ written s a, Q w.2 := by
  rcases step_controlli hstep with ⟨hnone, hsame⟩ | ⟨p, c, d, hsome, hold, hafter⟩
  · rw [hnone]
    refine iff_of_true ?_ (by simp)
    rcases hsame with hsame | ⟨p, herase⟩
    · rwa [hsame]
    · rw [herase]
      exact hbefore.erase p
  · rw [hafter, allDocs_insert_iff hbefore, hwrite p c d hsome (hold.imp_left And.right), hsome]
    simp

/-- A property of all machines is kept by a step if every record written over nothing or
over a document with the property gives it. -/
theorem allDocs_step {zone : Zone} {s t : State} {a : Action} {P : Path → Doc → Prop}
    (hbefore : AllDocs P s.backend.controlli) (hstep : step zone s a = some t)
    (hwrite : ∀ p c d, written s a = some (p, c) → (d = (fun _ => none) ∨ P p d) →
      P p (overwrite d c.toJson)) :
    AllDocs P t.backend.controlli := by
  refine (allDocs_step_iff (Q := fun _ => True) hbefore hstep ?_).mpr fun _ _ => trivial
  intro p c d hsome hold
  exact iff_of_true (hwrite p c d hsome (hold.imp_right (hbefore p d))) trivial

/-! ## What holds of all records -/

/-- A step keeps the readings, except that a read adds the document that is stored. -/
theorem step_readings {zone : Zone} {s t : State} {a : Action} (h : step zone s a = some t) :
    t.readings = s.readings ∨ ∃ r : Reading, a = .read r.path r.hour ∧
      s.backend.controlli.lookup r.path = some r.data ∧ t.readings = r :: s.readings := by
  cases step_spec h with
  | @read p hour r hread =>
    obtain ⟨rfl, rfl, hdoc⟩ := Reading.ofBackend_eq_some hread
    exact Or.inr ⟨r, rfl, hdoc, rfl⟩
  | _ => exact Or.inl rfl

/-- A property of all records held by screens, and of every record that a stored document
decodes to. -/
structure Records (Q : Controllo → Prop) (s : State) : Prop where
  /-- The records held have it. -/
  readings : ∀ r ∈ s.readings, Q r.controllo
  /-- The stored documents decode to records that have it. -/
  stored : AllDocs (fun _ d => ∀ (h : Hour) c, Controllo.fromSnapshot d h.text = some c → Q c)
    s.backend.controlli

/-- No records are there at the start. -/
theorem records_start (Q : Controllo → Prop) : Records Q State.start :=
  ⟨by simp [State.start], allDocs_empty _⟩

/-- A step keeps a property of all records if what it writes decodes to records that have
the property. -/
theorem records_step {zone : Zone} {Q : Controllo → Prop} {s t : State} {a : Action}
    (hs : Records Q s) (hstep : step zone s a = some t)
    (hwrite : ∀ p c d, written s a = some (p, c) → ∀ (h : Hour) c',
      Controllo.fromSnapshot (overwrite d c.toJson) h.text = some c' → Q c') : Records Q t := by
  constructor
  · rcases step_readings hstep with hsame | ⟨r, _, hdoc, hnew⟩
    · rw [hsame]
      exact hs.readings
    · rw [hnew]
      intro r' hr'
      rcases List.mem_cons.mp hr' with rfl | hr'
      · exact hs.stored _ _ hdoc r'.hour _ r'.decodes
      · exact hs.readings r' hr'
  · exact allDocs_step hs.stored hstep fun p c d hsome _ => hwrite p c d hsome

/-! ## The register -/

/-- **What a step does to the register.** -/
theorem step_registro {zone : Zone} {s t : State} {a : Action} (h : step zone s a = some t) :
    t.backend.registroControlli =
      match registered zone s a with
      | none => s.backend.registroControlli
      | some (p, r) => setDoc p r.toJson s.backend.registroControlli := by
  cases step_spec h with
  | read _ => rfl
  | @add c actions oSet oPut f _ => exact Add.conferma_registro f oSet oPut s.backend
  | @edit i actions oUpdate oPut r f _ _ =>
    exact EditControl.conferma_registro f oUpdate oPut s.backend
  | @check i actions oRegistro oUpdate r f hr hf =>
    have hregistered : registered zone s (.check i actions oRegistro oUpdate) =
        f.registers zone oRegistro r.controllo := by
      simp [registered, hr, hf]
    rw [hregistered]
    exact ControlCheck.conferma_registro zone oRegistro oUpdate r.controllo f s.backend
  | delete =>
    unfold deleteControllo
    split
    · rfl
    · rfl
    · dsimp only
      split <;> rfl

end Confirms

end EthosApp
