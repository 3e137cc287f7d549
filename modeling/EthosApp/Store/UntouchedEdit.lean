import EthosApp.Dart.StoredDay
import EthosApp.Screens.EditControl
import EthosApp.Store.Codec

/-!
# Edits without a change

An edit that is confirmed as the form was opened writes the whole record back: the dates
in their canonical form, and the sheet under a key that is not read. The record is decoded
as before, whatever the document looked like.
-/

namespace EthosApp

open Dart Firestore DocStore

namespace UntouchedEdit

/-- A confirmed edit without a change. -/
structure Confirm where
  /-- The hour that the record was loaded with. -/
  hour : Hour
  /-- The answer to the update. -/
  oUpdate : Outcome
  /-- The answer to the upload, if there were one. -/
  oPut : Outcome

/-- The form is opened on the machine stored under a code, and confirmed. -/
def confirm (codice : String) (b : Backend) (e : Confirm) : Option Backend := do
  let p ← docPath codice
  let data ← b.controlli.lookup p
  let widget ← Controllo.fromSnapshot data e.hour.text
  let f ← EditControl.session widget []
  return (f.conferma e.oUpdate e.oPut b).2

/-- The machine stored under a path, as every reader decodes it. -/
def Held (p : Path) (m : Controllo) (b : Backend) : Prop :=
  ∃ d, b.controlli.lookup p = some d ∧
    ∀ h : Hour, Controllo.fromSnapshot d h.text = some (m.atHour h)

/-- A document that is decoded with one hour is decoded with every hour. -/
theorem fromSnapshot_any_hour {d : Doc} {h : Hour} {c : Controllo}
    (hdecode : Controllo.fromSnapshot d h.text = some c) (hyears : c.FourDigitYears) (h' : Hour) :
    Controllo.fromSnapshot d h'.text = some (c.atHour h') := by
  obtain ⟨hcod, htipo, hperiodo, hdescrizione, ⟨su, hsu, hu⟩, ⟨sp, hsp, hp⟩, hscheda⟩ :=
    Controllo.fromSnapshot_spec hdecode
  obtain ⟨s, hs, hpath⟩ := Option.map_eq_some_iff.mp hscheda
  simp [Controllo.fromSnapshot, hcod, htipo, hperiodo, hdescrizione, hsu, hsp, hs, hpath,
    DateTime.parse_any_hour hu hyears.1 h', DateTime.parse_any_hour hp hyears.2 h',
    Controllo.atHour]

/-- The record that an untouched form writes. -/
theorem exists_form {m : Controllo} (hcod : m.cod ≠ "") (hyears : m.FourDigitYears)
    (hdescrizione : m.descrizione ≠ "") (hscheda : m.scheda ≠ "") :
    ∃ f, EditControl.session m [] = some f ∧ f.controllo = some {
      m with
      dataUltimoControllo := DateTime.midnight m.dataUltimoControllo.date
      dataProssimoControllo := DateTime.midnight m.dataProssimoControllo.date
      scheda := "schede/" ++ m.cod } := by
  have hrange : ∀ {t : DateTime}, 0 ≤ t.date.year ∧ t.date.year ≤ 9999 →
      DateTime.InRange (t.date.toDays * microsPerDay) := by
    intro t hyear
    exact DateTime.inRange_midnight ⟨by omega, hyear.2⟩
  obtain ⟨hultimo, hprossimo⟩ := hyears
  refine ⟨_, EditControl.session_eq_some.mpr ⟨_, by
      rw [EditControl.initState, EditControl.dateField_eq_some hultimo,
        EditControl.dateField_eq_some hprossimo]; rfl,
      rfl, ?_⟩, EditControl.controllo_eq_some.mpr ⟨?_, ?_, ?_⟩⟩
  · simp [EditControl.valid, notEmpty, DateTimeField.validator, hcod, hdescrizione, hscheda]
  · exact DateTimeField.parsed_format rfl hultimo.1 (hrange hultimo)
  · exact DateTimeField.parsed_format rfl hprossimo.1 (hrange hprossimo)
  · exact ⟨rfl, rfl, rfl, rfl, rfl⟩

/-- An untouched edit leaves the machine as every reader decodes it. -/
theorem exists_confirm {p : Path} {m : Controllo} {b : Backend} (hpath : docPath m.cod = some p)
    (hyears : m.FourDigitYears) (hdescrizione : m.descrizione ≠ "") (hscheda : m.scheda ≠ "")
    (hheld : Held p m b) (e : Confirm) : ∃ b', confirm m.cod b e = some b' ∧ Held p m b' := by
  obtain ⟨d, hdoc, hdecode⟩ := hheld
  have hcod : m.cod ≠ "" := by
    intro hempty
    have hnone : docPath "" = none := by decide
    rw [hempty, hnone] at hpath
    cases hpath
  have hsheet : Controllo.schedaOf d m.cod = some m.scheda := by
    have hspec := (Controllo.fromSnapshot_spec (hdecode Hour.zero)).2.2.2.2.2.2
    rwa [Controllo.atHour_cod, Controllo.atHour_scheda] at hspec
  obtain ⟨f, hf, hform⟩ := exists_form (m := m.atHour e.hour) hcod
    (Controllo.atHour_years.mpr hyears) hdescrizione hscheda
  have hconfirm : confirm m.cod b e = some (f.conferma e.oUpdate e.oPut b).2 := by
    simp [confirm, hpath, hdoc, hdecode, hf]
  refine ⟨_, hconfirm, ?_⟩
  have hcontrolli := f.conferma_controlli e.oUpdate e.oPut b
  cases ho : e.oUpdate with
  | failure =>
    have hnone : f.writes .failure = none := by simp [EditControl.writes, writtenPath]
    rw [ho, hnone] at hcontrolli
    exact ⟨d, by rw [hcontrolli]; exact hdoc, hdecode⟩
  | success =>
    have hwrites := EditControl.writes_eq_some.mpr ⟨hform, rfl, hpath⟩
    rw [ho, hwrites] at hcontrolli
    refine ⟨_, by rw [hcontrolli]; exact lookup_updateDoc hdoc, ?_⟩
    intro h
    refine (Controllo.fromSnapshot_overwrite d h ?_).trans ?_
    · exact hyears
    · dsimp only
      rw [Controllo.atHour_cod, hsheet]
      rfl

/-- Any number of untouched edits leave the machine as every reader decodes it. -/
theorem exists_confirms {p : Path} {m : Controllo} {b : Backend} (hpath : docPath m.cod = some p)
    (hyears : m.FourDigitYears) (hdescrizione : m.descrizione ≠ "") (hscheda : m.scheda ≠ "")
    (hheld : Held p m b) (confirms : List Confirm) :
    ∃ b', confirms.foldlM (confirm m.cod) b = some b' ∧ Held p m b' := by
  induction confirms generalizing b with
  | nil => exact ⟨b, rfl, hheld⟩
  | cons e confirms ih =>
    obtain ⟨b₁, hfirst, hheld₁⟩ := exists_confirm hpath hyears hdescrizione hscheda hheld e
    obtain ⟨b₂, hrest, hheld₂⟩ := ih hheld₁
    exact ⟨b₂, by simp [List.foldlM_cons, hfirst, hrest], hheld₂⟩

/-- The machine is read with the default hour. -/
theorem Held.getControllo {p : Path} {m : Controllo} {b : Backend} (hheld : Held p m b)
    (hpath : docPath m.cod = some p) : getControllo m.cod b = some (m.atHour Hour.zero) := by
  obtain ⟨d, hdoc, hdecode⟩ := hheld
  rw [getControllo_eq hpath hdoc, ← hdecode Hour.zero, zero_text]

/-- **An untouched edit changes nothing.** A machine stored under its own code whose
document is decoded with some hour to a record with four-digit years, a description and a
sheet can be opened for editing and confirmed as it is any number of times, with any hour
each time, and is read as before in all fields. -/
theorem untouched_edits {codice : String} {p : Path} {b : Backend} {d : Doc} {h : Hour}
    {m : Controllo} (hpath : docPath codice = some p) (hdoc : b.controlli.lookup p = some d)
    (hcodice : d "codice" = some (.str codice))
    (hdecode : Controllo.fromSnapshot d h.text = some m) (hyears : m.FourDigitYears)
    (hdescrizione : m.descrizione ≠ "") (hscheda : m.scheda ≠ "") (confirms : List Confirm) :
    ∃ r b', getControllo codice b = some r ∧ confirms.foldlM (confirm codice) b = some b' ∧
      getControllo codice b' = some r := by
  have hcod : m.cod = codice := by
    have hread := (Controllo.fromSnapshot_spec hdecode).1
    rw [hcodice] at hread
    exact (Option.some.inj hread).symm
  rw [← hcod] at hpath ⊢
  have hheld : Held p m b := ⟨d, hdoc, fromSnapshot_any_hour hdecode hyears⟩
  obtain ⟨b', hconfirms, hheld'⟩ :=
    exists_confirms hpath hyears hdescrizione hscheda hheld confirms
  exact ⟨_, b', hheld.getControllo hpath, hconfirms, hheld'.getControllo hpath⟩

/-- A stored document with dates that are not in canonical form. -/
def notCanonical : MapLiteral :=
  [("codice", .str "M1"), ("tipo", .str "Forni"), ("periodo", .str "Annuale"),
    ("descrizione", .str "Pulizia"), ("dataUltimo", .str "20220115"),
    ("dataProssimo", .str "2022-13-45"), ("schedaControllo", .str "schede/vecchia.pdf")]

/-- The remote state with that document. -/
def backendNotCanonical : Backend :=
  { Backend.empty with controlli := setDoc ["M1"] notCanonical ∅ }

/-- The machine is edited twice without a change, loaded by the home page and by its code. -/
theorem untouched_edits_notCanonical :
    ∃ r b', getControllo "M1" backendNotCanonical = some r ∧
      [Confirm.mk ⟨10, 0, 0, by decide, by decide, by decide⟩ .success .success,
        ⟨Hour.zero, .success, .success⟩].foldlM (confirm "M1") backendNotCanonical = some b' ∧
      getControllo "M1" b' = some r := by
  have hstored : backendNotCanonical.controlli.lookup ["M1"] = some (ofMap notCanonical) :=
    lookup_setDoc ["M1"] notCanonical ∅
  have hdecodes : (Controllo.fromSnapshot (ofMap notCanonical) Hour.zero.text).isSome := by
    decide +kernel
  obtain ⟨m, hm⟩ := Option.isSome_iff_exists.mp hdecodes
  have hfields : ∀ m ∈ Controllo.fromSnapshot (ofMap notCanonical) Hour.zero.text,
      m.FourDigitYears ∧ m.descrizione ≠ "" ∧ m.scheda ≠ "" := by
    decide +kernel
  obtain ⟨hyears, hdescrizione, hscheda⟩ := hfields m hm
  exact untouched_edits (by decide) hstored rfl hm hyears hdescrizione hscheda _

end UntouchedEdit

end EthosApp
