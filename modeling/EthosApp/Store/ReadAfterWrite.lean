import EthosApp.Screens.EditControl
import EthosApp.Store.Codec

/-!
# Reading a machine after writing it

`toJson` writes the path of the sheet under `scheda`, but `fromSnapshot` looks for it
under `schedaControllo`. A written record is therefore read back with the path that the
older document gave, or with `schede/` followed by the code. All other fields are read
back as written.
-/

namespace EthosApp

open Dart Firestore DocStore

namespace Controllo

/-- Reading by code after a write returns the written record. -/
def ReadsBack (c : Controllo) (b : Backend) : Prop :=
  ∃ c', getControllo c.cod b = some c' ∧ c'.SameDays c

/-- What `getControllo` decodes from a document over which a record was written. -/
theorem getControllo_of_overwrite {c : Controllo} {b : Backend} {p : Path} {d : Doc}
    (hpath : docPath c.cod = some p) (hdoc : b.controlli.lookup p = some (overwrite d c.toJson))
    (hyears : c.FourDigitYears) :
    getControllo c.cod b = (schedaOf d c.cod).map fun scheda =>
      { c with
        dataUltimoControllo := DateTime.midnight c.dataUltimoControllo.date
        dataProssimoControllo := DateTime.midnight c.dataProssimoControllo.date
        scheda := scheda } := by
  rw [getControllo_eq hpath hdoc, ← zero_text, fromSnapshot_overwrite d Hour.zero hyears]
  rfl

/-- A record written over a document is read back as written exactly when its path is
the one that the document gives. -/
theorem readsBack_iff_of_overwrite {c : Controllo} {b : Backend} {p : Path} {d : Doc}
    (hpath : docPath c.cod = some p) (hdoc : b.controlli.lookup p = some (overwrite d c.toJson))
    (hyears : c.FourDigitYears) : c.ReadsBack b ↔ schedaOf d c.cod = some c.scheda := by
  rw [ReadsBack, getControllo_of_overwrite hpath hdoc hyears]
  constructor
  · rintro ⟨c', hread, hsame⟩
    obtain ⟨scheda, hscheda, rfl⟩ := Option.map_eq_some_iff.mp hread
    rw [hscheda]
    exact congrArg some hsame.scheda
  · intro hscheda
    refine ⟨_, Option.map_eq_some_iff.mpr ⟨c.scheda, hscheda, rfl⟩, ?_⟩
    exact ⟨rfl, rfl, rfl, rfl, rfl, rfl, rfl⟩

/-- After an update, reading by code returns the written record exactly when its path
is the one that the older document gives. -/
theorem readsBack_editControlDB {c : Controllo} {b : Backend} {p : Path} {d : Doc}
    (hpath : docPath c.cod = some p) (hdoc : b.controlli.lookup p = some d)
    (hyears : c.FourDigitYears) :
    c.ReadsBack (editControlDB .success c b).2 ↔ schedaOf d c.cod = some c.scheda := by
  rw [editControlDB_success b hpath]
  exact readsBack_iff_of_overwrite hpath (lookup_updateDoc hdoc) hyears

/-- After a set, reading by code returns the written record exactly when its path is
`schede/` followed by the code. -/
theorem readsBack_addControlloDB {c : Controllo} {b : Backend} {p : Path}
    (hpath : docPath c.cod = some p) (hyears : c.FourDigitYears) :
    c.ReadsBack (addControlloDB .success c b).2 ↔ c.scheda = "schede/" ++ c.cod := by
  rw [addControlloDB_success b hpath, eq_comm]
  have hdoc := lookup_setDoc p c.toJson b.controlli
  rw [ofMap_eq_overwrite] at hdoc
  rw [readsBack_iff_of_overwrite hpath hdoc hyears]
  simp [schedaOf, asNullableString]

/-- After a confirmed edit with a new file, the file is stored under `schede/` followed by
the code, and the machine is read with that path exactly when the older document gives it. -/
theorem scheda_after_upload {f : EditControl} {c : Controllo} {file : File} {b : Backend} {p : Path}
    {d : Doc} (hform : f.controllo = some c) (hfile : f.file = some file)
    (hpath : docPath f.codice = some p) (hdoc : b.controlli.lookup p = some d)
    (hyears : c.FourDigitYears) :
    (f.conferma .success .success b).2.storage (child ("schede/" ++ f.codice)) = some file ∧
      ((getControllo f.codice (f.conferma .success .success b).2).map Controllo.scheda =
          some ("schede/" ++ f.codice) ↔
        schedaOf d f.codice = some ("schede/" ++ f.codice)) := by
  have hcod : c.cod = f.codice := EditControl.controllo_cod hform
  rw [← hcod] at hpath
  have hrun : (f.conferma .success .success b).2 =
      { b with
        controlli := updateDoc p c.toJson b.controlli
        storage := Function.update b.storage (child ("schede/" ++ f.codice)) (some file) } := by
    rw [EditControl.conferma_some hform]
    simp [Command.andThen, editControlDB_success b hpath, hfile, putFile]
  have hwritten : (f.conferma .success .success b).2.controlli.lookup p =
      some (overwrite d c.toJson) := by
    rw [hrun]
    exact lookup_updateDoc hdoc
  constructor
  · rw [hrun]
    exact Function.update_self _ _ _
  · rw [← hcod, getControllo_of_overwrite hpath hwritten hyears, Option.map_map]
    simp [Function.comp_def]

/-- **Read after write.** A successful update is read back in all seven fields exactly
when the older document gives the path of the written record, a successful set of an
absent document exactly when that path is `schede/` followed by the code, and an edit
with a new file leads to the uploaded object exactly when the older document gives its
path. -/
theorem read_after_write_iff {b : Backend} {p : Path} {c : Controllo}
    (hpath : docPath c.cod = some p) (hyears : c.FourDigitYears) :
    (∀ d, b.controlli.lookup p = some d →
      (c.ReadsBack (editControlDB .success c b).2 ↔ schedaOf d c.cod = some c.scheda)) ∧
    (b.controlli.lookup p = none →
      (c.ReadsBack (addControlloDB .success c b).2 ↔ c.scheda = "schede/" ++ c.cod)) ∧
    ∀ (d : Doc) (f : EditControl) (file : File), f.controllo = some c → f.file = some file →
      b.controlli.lookup p = some d →
        (f.conferma .success .success b).2.storage (child ("schede/" ++ f.codice)) = some file ∧
        ((getControllo f.codice (f.conferma .success .success b).2).map Controllo.scheda =
            some ("schede/" ++ f.codice) ↔
          schedaOf d f.codice = some ("schede/" ++ f.codice)) := by
  refine ⟨?_, ?_, ?_⟩
  · intro d hdoc
    exact readsBack_editControlDB hpath hdoc hyears
  · intro _
    exact readsBack_addControlloDB hpath hyears
  · intro d f file hform hfile hdoc
    rw [EditControl.controllo_cod hform] at hpath
    exact scheda_after_upload hform hfile hpath hdoc hyears

/-- A stored document that gives the path of its sheet. -/
def conSchedaControllo : MapLiteral :=
  [("codice", .str "M1"), ("tipo", .str "Forni"), ("periodo", .str "Annuale"),
    ("descrizione", .str "Pulizia"), ("dataUltimo", .str "2022-01-15"),
    ("dataProssimo", .str "2023-01-15"), ("schedaControllo", .str "schede/vecchia.pdf")]

/-- The remote state with that document. -/
def backendM1 : Backend :=
  { Backend.empty with controlli := setDoc ["M1"] conSchedaControllo ∅ }

/-- The edit form of that document with a new file. -/
def editM1 : EditControl where
  tipo := "Forni"
  periodo := "Annuale"
  codice := "M1"
  descrizione := "Pulizia"
  filename := "nuova.pdf"
  dataUltimoControllo := .typed "15/01/2022"
  dataProssimoControllo := .typed "15/01/2023"
  file := some ⟨"nuova.pdf"⟩

/-- The record that the form writes. -/
def controlloM1 : Controllo where
  cod := "M1"
  tipo := "Forni"
  periodo := "Annuale"
  descrizione := "Pulizia"
  dataUltimoControllo := .midnight (.normalize 2022 1 15)
  dataProssimoControllo := .midnight (.normalize 2023 1 15)
  scheda := "schede/M1"

/-- The three parts at one machine: an update over a document with a path of its own, a
set of an absent document, and an edit with a new file. -/
theorem read_after_write_iff_M1 :
    (controlloM1.ReadsBack (editControlDB .success controlloM1 backendM1).2 ↔
      schedaOf (ofMap conSchedaControllo) "M1" = some "schede/M1") ∧
    (controlloM1.ReadsBack (addControlloDB .success controlloM1 Backend.empty).2 ↔
      "schede/M1" = "schede/" ++ "M1") ∧
    (editM1.conferma .success .success backendM1).2.storage (child "schede/M1") =
      some ⟨"nuova.pdf"⟩ ∧
    ((getControllo "M1" (editM1.conferma .success .success backendM1).2).map Controllo.scheda =
        some "schede/M1" ↔
      schedaOf (ofMap conSchedaControllo) "M1" = some "schede/M1") := by
  have hpath : docPath controlloM1.cod = some ["M1"] := by decide
  have hstored := lookup_setDoc ["M1"] conSchedaControllo (∅ : Collection)
  obtain ⟨hupdate, _, hupload⟩ := read_after_write_iff (b := backendM1) hpath (by decide)
  obtain ⟨_, hset, _⟩ := read_after_write_iff (b := Backend.empty) hpath (by decide)
  exact ⟨hupdate _ hstored, hset rfl,
    hupload _ editM1 ⟨"nuova.pdf"⟩ (by decide +kernel) rfl hstored⟩

/-- An edit over a document with a path of its own is not read back: the document
decodes, but the path it gave is kept and the new file is not the one opened. -/
theorem read_after_write_fails_M1 :
    docPath controlloM1.cod = some ["M1"] ∧
      backendM1.controlli.lookup ["M1"] = some (ofMap conSchedaControllo) ∧
      (fromSnapshot (ofMap conSchedaControllo)).isSome ∧ controlloM1.FourDigitYears ∧
      ¬ controlloM1.ReadsBack (editControlDB .success controlloM1 backendM1).2 ∧
      editM1.controllo = some controlloM1 ∧
      (getControllo "M1" (editM1.conferma .success .success backendM1).2).map Controllo.scheda =
        some "schede/vecchia.pdf" := by
  refine ⟨by decide, lookup_setDoc _ _ _, by decide +kernel, by decide, ?_, by decide +kernel,
    by decide +kernel⟩
  rw [readsBack_editControlDB (by decide) (lookup_setDoc _ _ _) (by decide)]
  decide

end Controllo

end EthosApp
