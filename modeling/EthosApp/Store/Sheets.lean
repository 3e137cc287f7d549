import EthosApp.Store.Codec
import EthosApp.Store.Confirms

/-!
# The inspection sheet of every machine

A machine document and its sheet are written by two steps, the document first. The code and
the file of the second step are read from the form when the first one has been answered, and
the form can be changed meanwhile. A sheet is missing exactly when a document was stored whose
object was not there before, and no upload to the same object followed.
-/

namespace EthosApp

open Dart Firestore DocStore Runs Confirms

/-- The document of a machine whose sheet resolves to `schede/` and its own code, with
an object stored at that path. -/
def Backend.HasSheet (b : Backend) (d : Doc) : Prop :=
  ∃ cod, d "codice" = some (.str cod) ∧ Controllo.schedaOf d cod = some ("schede/" ++ cod) ∧
    (b.storage (child ("schede/" ++ cod))).isSome

/-- Every document in `controlli` has its sheet. -/
def Backend.AllSheets (b : Backend) : Prop := AllDocs (fun _ d => b.HasSheet d) b.controlli

namespace Confirms

/-- Documents are stored under their own code, without a path for the sheet. -/
def StoredByCode (s : State) : Prop :=
  AllDocs (fun p d => (∃ cod, d "codice" = some (.str cod) ∧ docPath cod = some p) ∧
    d "schedaControllo" = none) s.backend.controlli

/-- Every step stores documents under their own code. -/
theorem storedByCode_step {zone : Zone} {s t : State} {a : Action} (hbefore : StoredByCode s)
    (hstep : step zone s a = some t) : StoredByCode t := by
  refine allDocs_step hbefore hstep ?_
  rintro p c d hsome hold
  refine ⟨⟨c.cod, Controllo.overwrite_codice d c, (written_spec hsome).1⟩, ?_⟩
  rw [Controllo.overwrite_schedaControllo]
  rcases hold with rfl | ⟨_, hkey⟩
  · rfl
  · exact hkey

/-- The object that a step stores. -/
def uploads (s : State) : Action → Option (String × File)
  | .add c actions _ oPut => (Add.session c actions).bind fun f => f.uploads oPut
  | .edit i actions _ oPut => do
    let r ← s.readings[i]?
    let f ← EditControl.session r.controllo actions
    f.uploads oPut
  | _ => none

/-- **What a step does to the stored objects.** Every step but a deletion adds the
uploaded object, and a deletion removes at most the sheet of its code, after removing
the document of that code. -/
theorem step_storage {zone : Zone} {s t : State} {a : Action} (h : step zone s a = some t) :
    t.backend.storage = afterUpload s.backend.storage (uploads s a) ∨
    ∃ c oDoc oFile p, a = .delete c oDoc oFile ∧ docPath c = some p ∧
      t.backend.controlli = s.backend.controlli.erase p ∧
      t.backend.storage = Function.update s.backend.storage (child ("schede/" ++ c)) none := by
  cases step_spec h with
  | read _ => exact Or.inl rfl
  | @add c actions oSet oPut f hf =>
    left
    simp only [uploads, hf, Option.bind_some]
    exact Add.conferma_storage f oSet oPut s.backend
  | @edit i actions oUpdate oPut r f hr hf =>
    left
    simp only [uploads, hr, hf, Option.bind_eq_bind, Option.bind_some]
    exact EditControl.conferma_storage f oUpdate oPut s.backend
  | @check i actions oRegistro oUpdate r f _ _ =>
    exact Or.inl (ControlCheck.conferma_storage zone oRegistro oUpdate r.controllo f s.backend)
  | @delete c oDoc oFile =>
    unfold deleteControllo
    split
    · exact Or.inl rfl
    · exact Or.inl rfl
    · rename_i p hpath
      dsimp only
      split
      · exact Or.inr ⟨c, _, _, p, rfl, hpath, rfl, rfl⟩
      · exact Or.inl rfl

end Confirms

namespace Sheets

/-- A step whose form is left alone while its handler is under way, or an `Add` or an edit
with what the user does to the form until the first write has been answered. -/
inductive Action
  | confirm (a : Confirms.Action)
  | add (c : String) (actions : List Add.Action) (oSet oPut : Outcome)
      (meanwhile : List Add.Action)
  | edit (i : ℕ) (actions : List EditControl.Action) (oUpdate oPut : Outcome)
      (meanwhile : List EditControl.Action)

/-- The same step over a form that is left alone. -/
def Action.alone : Action → Confirms.Action
  | .confirm a => a
  | .add c actions oSet oPut _ => .add c actions oSet oPut
  | .edit i actions oUpdate oPut _ => .edit i actions oUpdate oPut

/-- One step. -/
def step (zone : Zone) (s : State) : Action → Option State
  | .confirm a => Confirms.step zone s a
  | .add c actions oSet oPut meanwhile => do
    let f ← Add.session c actions
    let later ← meanwhile.foldlM Add.act f
    return { s with backend := (f.confermaWith oSet oPut later s.backend).2 }
  | .edit i actions oUpdate oPut meanwhile => do
    let r ← s.readings[i]?
    let f ← EditControl.session r.controllo actions
    let later ← meanwhile.foldlM EditControl.act f
    return { s with backend := (f.confermaWith oUpdate oPut later s.backend).2 }

/-- The object that a step stores. -/
def uploads (s : State) : Action → Option (String × File)
  | .confirm a => Confirms.uploads s a
  | .add c actions _ oPut meanwhile => do
    let f ← Add.session c actions
    let later ← meanwhile.foldlM Add.act f
    f.uploadsWith oPut later
  | .edit i actions _ oPut meanwhile => do
    let r ← s.readings[i]?
    let f ← EditControl.session r.controllo actions
    let later ← meanwhile.foldlM EditControl.act f
    f.uploadsWith oPut later

/-- The step stores no record without its sheet: the object exists already, or the step
stores this object. -/
def KeepsSheet (s : State) (a : Action) : Prop :=
  ∀ w ∈ written s a.alone, (s.backend.storage (child ("schede/" ++ w.2.cod))).isSome ∨
    ∃ u ∈ uploads s a, child u.1 = child ("schede/" ++ w.2.cod)

instance (s : State) (a : Action) : Decidable (KeepsSheet s a) :=
  inferInstanceAs (Decidable (∀ _ ∈ _, _ ∨ ∃ _ ∈ _, _))

/-- What the user does to a form after the first write changes the stored object only. -/
theorem step_alone {zone : Zone} {s t : State} {a : Action} (h : step zone s a = some t) :
    ∃ u, Confirms.step zone s a.alone = some u ∧ u.backend.controlli = t.backend.controlli := by
  cases a with
  | confirm a => exact ⟨t, h, rfl⟩
  | add c actions oSet oPut meanwhile =>
    simp only [step, Option.bind_eq_bind, Option.bind_eq_some_iff, Option.pure_def,
      Option.some.injEq] at h
    obtain ⟨f, hf, later, _, rfl⟩ := h
    refine ⟨{ s with backend := (f.conferma oSet oPut s.backend).2 }, ?_, ?_⟩
    · simp [Action.alone, Confirms.step, hf]
    · exact (f.confermaWith_controlli f oSet oPut s.backend).trans
        (f.confermaWith_controlli later oSet oPut s.backend).symm
  | edit i actions oUpdate oPut meanwhile =>
    simp only [step, Option.bind_eq_bind, Option.bind_eq_some_iff, Option.pure_def,
      Option.some.injEq] at h
    obtain ⟨r, hr, f, hf, later, _, rfl⟩ := h
    refine ⟨{ s with backend := (f.conferma oUpdate oPut s.backend).2 }, ?_, ?_⟩
    · simp [Action.alone, Confirms.step, hr, hf]
    · exact (f.confermaWith_controlli f oUpdate oPut s.backend).trans
        (f.confermaWith_controlli later oUpdate oPut s.backend).symm

/-- Every step but a deletion adds the uploaded object, and a deletion removes at most the
sheet of its code, after removing the document of that code. -/
theorem step_storage {zone : Zone} {s t : State} {a : Action} (h : step zone s a = some t) :
    t.backend.storage = afterUpload s.backend.storage (uploads s a) ∨
    ∃ c oDoc oFile p, a = .confirm (.delete c oDoc oFile) ∧ docPath c = some p ∧
      t.backend.controlli = s.backend.controlli.erase p ∧
      t.backend.storage =
        Function.update s.backend.storage (child ("schede/" ++ c)) none := by
  cases a with
  | confirm a =>
    apply (Confirms.step_storage h).imp_right
    rintro ⟨c, oDoc, oFile, p, rfl, hdelete⟩
    exact ⟨c, oDoc, oFile, p, rfl, hdelete⟩
  | add c actions oSet oPut meanwhile =>
    simp only [step, Option.bind_eq_bind, Option.bind_eq_some_iff, Option.pure_def,
      Option.some.injEq] at h
    obtain ⟨f, hf, later, hlater, rfl⟩ := h
    left
    simp only [uploads, hf, hlater, Option.bind_eq_bind, Option.bind_some]
    exact f.confermaWith_storage later oSet oPut s.backend
  | edit i actions oUpdate oPut meanwhile =>
    simp only [step, Option.bind_eq_bind, Option.bind_eq_some_iff, Option.pure_def,
      Option.some.injEq] at h
    obtain ⟨r, hr, f, hf, later, hlater, rfl⟩ := h
    left
    simp only [uploads, hr, hf, hlater, Option.bind_eq_bind, Option.bind_some]
    exact f.confermaWith_storage later oUpdate oPut s.backend

/-- A document to which a record was written has its sheet exactly if the object of the
record's code is stored. -/
theorem hasSheet_overwrite_iff {b : Backend} {d : Doc} (hkey : d "schedaControllo" = none)
    (c : Controllo) : b.HasSheet (overwrite d c.toJson) ↔
      (b.storage (child ("schede/" ++ c.cod))).isSome := by
  have hscheda : Controllo.schedaOf (overwrite d c.toJson) c.cod = some ("schede/" ++ c.cod) := by
    simp [Controllo.schedaOf, Controllo.overwrite_schedaControllo, hkey, asNullableString]
  constructor
  · rintro ⟨cod, hcod, _, hobject⟩
    rw [Controllo.overwrite_codice] at hcod
    cases hcod
    exact hobject
  · intro hobject
    exact ⟨c.cod, Controllo.overwrite_codice d c, hscheda, hobject⟩

/-- After a step, the object of a code is stored exactly if it was before or the step stores
it. -/
theorem uploaded_iff {s t : State} {a : Action} (c : Controllo)
    (hstorage : t.backend.storage = afterUpload s.backend.storage (uploads s a)) :
    (t.backend.storage (child ("schede/" ++ c.cod))).isSome ↔
      (s.backend.storage (child ("schede/" ++ c.cod))).isSome ∨
        ∃ u ∈ uploads s a, child u.1 = child ("schede/" ++ c.cod) := by
  rw [hstorage, afterUpload_isSome]
  refine or_congr_right ?_
  constructor
  · rintro ⟨path, file, hupload, hpath⟩
    exact ⟨(path, file), hupload, hpath⟩
  · rintro ⟨⟨path, file⟩, hupload, hpath⟩
    exact ⟨path, file, hupload, hpath⟩

/-- A deletion removes the sheet of no document but the one that it removes. -/
theorem allSheets_of_delete {s t : State} {c : String} {p : Path} (hcode : StoredByCode s)
    (hbefore : s.backend.AllSheets) (hpath : docPath c = some p)
    (hdocs : t.backend.controlli = s.backend.controlli.erase p)
    (hstorage : t.backend.storage =
      Function.update s.backend.storage (child ("schede/" ++ c)) none) :
    t.backend.AllSheets := by
  intro p' d hd
  rw [hdocs] at hd
  have hne : p' ≠ p := by
    rintro rfl
    rw [AList.lookup_erase] at hd
    cases hd
  rw [AList.lookup_erase_ne hne] at hd
  obtain ⟨cod, hcod, hscheda, hobject⟩ := hbefore p' d hd
  refine ⟨cod, hcod, hscheda, ?_⟩
  obtain ⟨⟨cod', hcod', hpath'⟩, _⟩ := hcode p' d hd
  rw [hcod] at hcod'
  cases hcod'
  -- codes of different documents have different sheets
  have hother : child ("schede/" ++ cod) ≠ child ("schede/" ++ c) := by
    rw [Ne, child_schede_inj, segments_of_docPath hpath', segments_of_docPath hpath]
    exact hne
  rw [hstorage, Function.update_of_ne hother]
  exact hobject

/-- A step from machines with sheets leaves them with sheets exactly when the record
that it stores has one. -/
theorem allSheets_iff {zone : Zone} {s t : State} {a : Action} (hcode : StoredByCode s)
    (hbefore : s.backend.AllSheets) (hstep : step zone s a = some t) :
    t.backend.AllSheets ↔ KeepsSheet s a := by
  rcases step_storage hstep with hstorage | ⟨c, oDoc, oFile, p, rfl, hpath, hdocs, hstorage⟩
  · -- the objects that were stored stay, so that the older documents keep their sheets
    have hkept : AllDocs (fun _ d => t.backend.HasSheet d) s.backend.controlli := by
      intro p d hd
      obtain ⟨cod, hcod, hscheda, hobject⟩ := hbefore p d hd
      refine ⟨cod, hcod, hscheda, ?_⟩
      rw [hstorage]
      exact (afterUpload_isSome _ _ _).mpr (Or.inl hobject)
    obtain ⟨u, halone, hcontrolli⟩ := step_alone hstep
    rw [Backend.AllSheets, ← hcontrolli]
    refine (allDocs_step_iff
      (Q := fun c => (t.backend.storage (child ("schede/" ++ c.cod))).isSome) hkept halone
      ?_).trans ?_
    · intro p c d _ hold
      refine hasSheet_overwrite_iff ?_ c
      rcases hold with rfl | hold
      · rfl
      · exact (hcode p d hold).2
    · exact forall₂_congr fun w _ => uploaded_iff w.2 hstorage
  · refine iff_of_true ?_ (by simp [KeepsSheet, Action.alone, written])
    exact allSheets_of_delete hcode hbefore hpath hdocs hstorage

/-- **When every machine has its sheet.** In every run from empty collections, every
document has its sheet in every state exactly when no step stores a record without it. -/
theorem always_sheets_iff {zone : Zone} {hist : List (State × Action)} {t : State}
    (hrun : Run (step zone) State.start hist t) :
    Always (fun s => s.backend.AllSheets) hist t ↔ Steps KeepsSheet hist := by
  refine hrun.always_iff StoredByCode (allDocs_empty _) ?_ (allDocs_empty _) ?_
  · intro s a t hbefore hstep
    obtain ⟨u, halone, hcontrolli⟩ := step_alone hstep
    have hafter := storedByCode_step hbefore halone
    rwa [StoredByCode, hcontrolli] at hafter
  · intro s a t hcode hbefore hstep
    exact allSheets_iff hcode hbefore hstep

/-- What the user fills in before the registration of a machine. -/
def filled : List Add.Action :=
  [.descrizione "Pulizia", .dataUltimo (.type "15/01/2022"), .dataProssimo (.type "15/01/2023"),
    .file ⟨"/foto/scheda.pdf"⟩]

/-- A machine is registered with its sheet, read, and edited without a new file. -/
def addReadEdit : List Action :=
  [.confirm (.add "M1" filled .success .success), .confirm (.read ["M1"] Hour.zero),
    .edit 0 [.descrizione "Revisione"] .success .success []]

/-- The registration of a machine whose upload fails. -/
def addWithoutUpload : List Action := [.confirm (.add "M1" filled .success .failure)]

/-- The registration of a machine whose code is changed in the form before its sheet is
uploaded. -/
def addThenChange : List Action := [.add "M1" filled .success .success [.codice "M2"]]

/-- Every machine has its sheet along a run whose uploads succeed. -/
theorem always_sheets_iff_M1 :
    Always (fun s => s.backend.AllSheets)
      ((exec (step (Zone.fixed 0)) [] State.start addReadEdit).get (by decide +kernel)).1
      ((exec (step (Zone.fixed 0)) [] State.start addReadEdit).get (by decide +kernel)).2 :=
  (always_sheets_iff (run_get (by decide +kernel))).mpr (by unfold Steps; decide +kernel)

/-- The document is stored before the upload, which then fails. -/
theorem sheet_missing_M1 :
    ((exec (step (Zone.fixed 0)) [] State.start addWithoutUpload).map fun r =>
      ((getControllo "M1" r.2.backend).map Controllo.scheda,
        r.2.backend.storage (child "schede/M1"))) =
      some (some "schede/M1", none) := by
  decide +kernel

-- The upload of the same handler succeeds, but goes to the code that the form shows then.
example : ((exec (step (Zone.fixed 0)) [] State.start addThenChange).map fun r =>
    ((getControllo "M1" r.2.backend).map Controllo.scheda,
      r.2.backend.storage (child "schede/M1"), r.2.backend.storage (child "schede/M2"))) =
    some (some "schede/M1", none, some ⟨"/foto/scheda.pdf"⟩) := by
  decide +kernel

end Sheets

end EthosApp
