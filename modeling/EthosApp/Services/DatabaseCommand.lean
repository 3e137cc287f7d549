import EthosApp.Dart.Zone
import EthosApp.DataTypes.Controllo
import EthosApp.DataTypes.RegistroControllo

/-!
# `Services/database_command.dart`

The commands on the two Firestore collections and on Firebase Storage. A command takes
the server's answer to each write it issues. A refused write has no effect, and the
`catchError` of a command turns the refusal into a normal completion; an exception
thrown while the document reference is built is not caught.
-/

namespace EthosApp

open Dart Firestore DocStore

/-- A file of the device, by its path. -/
structure File where
  /-- The path on the device. -/
  path : String
  deriving DecidableEq

/-- The path of `ref().child(path)` of `firebase_storage`: the text without its empty segments,
as `standardizedPathForString` leaves it. -/
def child (path : String) : Path := segments path

/-- The remote state: both collections, and the stored object at each path. -/
structure Backend where
  /-- The collection `controlli`. -/
  controlli : Collection
  /-- The collection `registro_controlli`. -/
  registroControlli : Collection
  /-- Firebase Storage. -/
  storage : Path → Option File

/-- The empty remote state. -/
def Backend.empty : Backend := ⟨∅, ∅, fun _ => none⟩

/-- How an awaited future or a handler ends. -/
inductive Completion
  | normal
  | exception
  deriving DecidableEq

/-- A command or handler: its effect on the remote state and how it ends. -/
abbrev Command := Backend → Completion × Backend

namespace Command

/-- Throw an exception. -/
def throw : Command := fun b => (.exception, b)

/-- Do nothing. -/
def skip : Command := fun b => (.normal, b)

/-- Await one command, then run another. -/
def andThen (h k : Command) : Command := fun b =>
  match h b with
  | (.exception, b') => (.exception, b')
  | (.normal, b') => k b'

/-- Start a command without awaiting it: an exception of its future is lost. -/
def unawaited (h : Command) : Command := fun b => (.normal, (h b).2)

/-- What the second of two commands leaves alone is as the first command left it. -/
theorem andThen_frame {β : Type} (part : Backend → β) {h k : Command}
    (hk : ∀ b, part (k b).2 = part b) (b : Backend) :
    part (h.andThen k b).2 = part (h b).2 := by
  unfold andThen
  split
  · rename_i hexception
    rw [hexception]
  · rename_i b' hnormal
    rw [hk, hnormal]

end Command

/-- `addControlloDB`. -/
def addControlloDB (o : Outcome) (controllo : Controllo) : Command := fun b =>
  match docPath controllo.cod, o with
  | none, _ => (.exception, b)
  | some p, .success => (.normal, { b with controlli := setDoc p controllo.toJson b.controlli })
  | some _, .failure => (.normal, b)

/-- `editControlDB`. Updating a missing document is refused by the server. -/
def editControlDB (o : Outcome) (controllo : Controllo) : Command := fun b =>
  match docPath controllo.cod, o with
  | none, _ => (.exception, b)
  | some p, .success => (.normal, { b with controlli := updateDoc p controllo.toJson b.controlli })
  | some _, .failure => (.normal, b)

/-- The document identifier used by `registroControllo`:
`codice + dataControllo.toUtc().toIso8601String()`. -/
def registroId (zone : Zone) (controllo : RegistroControllo) : String :=
  controllo.codice ++ (controllo.dataControllo.toUtc zone).toIso8601String

/-- `registroControllo`. -/
def registroControllo (zone : Zone) (o : Outcome) (controllo : RegistroControllo) : Command :=
  fun b =>
    match docPath (registroId zone controllo), o with
    | none, _ => (.exception, b)
    | some p, .success =>
      (.normal, { b with registroControlli := setDoc p controllo.toJson b.registroControlli })
    | some _, .failure => (.normal, b)

/-- `isControlloPresente`. A failed read answers `false`. -/
def isControlloPresente (o : Outcome) (codice : String) (b : Backend) : Bool :=
  match docPath codice, o with
  | some p, .success => (b.controlli.lookup p).isSome
  | _, _ => false

/-- `getControllo`, where its read succeeds. An exception is rendered as `none`. -/
def getControllo (codice : String) (b : Backend) : Option Controllo := do
  let p ← docPath codice
  let data ← b.controlli.lookup p
  Controllo.fromSnapshot data

/-- `deleteControllo`. Neither failure is caught. -/
def deleteControllo (oDoc oFile : Outcome) (c : String) : Command := fun b =>
  match docPath c, oDoc with
  | none, _ => (.exception, b)
  | some _, .failure => (.exception, b)
  | some p, .success =>
    let b' := { b with controlli := b.controlli.erase p }
    match b'.storage (child ("schede/" ++ c)), oFile with
    | some _, .success =>
      (.normal, { b' with storage := Function.update b'.storage (child ("schede/" ++ c)) none })
    | _, _ => (.exception, b')

/-- `ref().child(path).putFile(file)` of `firebase_storage`. -/
def putFile (o : Outcome) (path : String) (file : File) : Command := fun b =>
  match o with
  | .success => (.normal, { b with storage := Function.update b.storage (child path) (some file) })
  | .failure => (.exception, b)

/-- The document that a write addresses, where the server accepts the write. -/
def writtenPath (o : Outcome) (id : String) : Option Path :=
  if o = .success then docPath id else none

/-- An executed write was accepted and addresses a document. -/
theorem writtenPath_eq_some {o : Outcome} {id : String} {p : Path} :
    writtenPath o id = some p ↔ o = .success ∧ docPath id = some p := by
  simp [writtenPath]

/-- What `addControlloDB` does to the remote state. -/
theorem addControlloDB_snd (o : Outcome) (controllo : Controllo) (b : Backend) :
    (addControlloDB o controllo b).2 =
      match writtenPath o controllo.cod with
      | none => b
      | some p => { b with controlli := setDoc p controllo.toJson b.controlli } := by
  cases hpath : docPath controllo.cod <;> cases o <;> simp [addControlloDB, writtenPath, hpath]

/-- What `editControlDB` does to the remote state. -/
theorem editControlDB_snd (o : Outcome) (controllo : Controllo) (b : Backend) :
    (editControlDB o controllo b).2 =
      match writtenPath o controllo.cod with
      | none => b
      | some p => { b with controlli := updateDoc p controllo.toJson b.controlli } := by
  cases hpath : docPath controllo.cod <;> cases o <;> simp [editControlDB, writtenPath, hpath]

/-- What `registroControllo` does to the remote state. -/
theorem registroControllo_snd (zone : Zone) (o : Outcome) (controllo : RegistroControllo)
    (b : Backend) :
    (registroControllo zone o controllo b).2 =
      match writtenPath o (registroId zone controllo) with
      | none => b
      | some p =>
        { b with registroControlli := setDoc p controllo.toJson b.registroControlli } := by
  cases hpath : docPath (registroId zone controllo) <;> cases o <;>
    simp [registroControllo, writtenPath, hpath]

/-- An update of an addressable document that succeeds. -/
theorem editControlDB_success {controllo : Controllo} {p : Path} (b : Backend)
    (hpath : docPath controllo.cod = some p) :
    editControlDB .success controllo b =
      (.normal, { b with controlli := updateDoc p controllo.toJson b.controlli }) := by
  simp [editControlDB, hpath]

/-- A set of an addressable document that succeeds. -/
theorem addControlloDB_success {controllo : Controllo} {p : Path} (b : Backend)
    (hpath : docPath controllo.cod = some p) :
    addControlloDB .success controllo b =
      (.normal, { b with controlli := setDoc p controllo.toJson b.controlli }) := by
  simp [addControlloDB, hpath]

/-- The sheet of a code is the object `schede` and the segments of the code. -/
theorem child_schede (code : String) : child ("schede/" ++ code) = "schede" :: segments code := by
  have hfront : ("schede/" ++ code).toList = "schede".toList ++ '/' :: code.toList := by
    rw [String.toList_append]
    rfl
  have hschede : parts "schede".toList = ["schede".toList] := by decide
  have hsegments : ∀ p : String, segments p = (parts p.toList).map String.ofList := fun _ => rfl
  rw [child, hsegments, hfront, parts_append, hschede, hsegments]
  simp

/-- The sheets of two codes are one object exactly if the codes have the same segments. -/
theorem child_schede_inj {code code' : String} :
    child ("schede/" ++ code) = child ("schede/" ++ code') ↔ segments code = segments code' := by
  rw [child_schede, child_schede, List.cons_inj_right]

/-- The segments of a text without a separator. -/
theorem segments_of_notMem {code : String} (hslash : '/' ∉ code.toList) :
    segments code = if code = "" then [] else [code] := by
  by_cases hempty : code = ""
  · subst hempty
    decide
  · rw [if_neg hempty, segments_of_docPath (docPath_of_notMem hempty hslash)]

/-- Codes that are no paths have different sheets. -/
theorem child_schede_inj_of_notMem {code code' : String} (hslash : '/' ∉ code.toList)
    (hslash' : '/' ∉ code'.toList) :
    child ("schede/" ++ code) = child ("schede/" ++ code') ↔ code = code' := by
  rw [child_schede_inj, segments_of_notMem hslash, segments_of_notMem hslash']
  constructor
  · intro h
    split_ifs at h with hempty hempty'
    · rw [hempty, hempty']
    · exact List.singleton_inj.mp h
  · rintro rfl
    rfl

/-- The object that a handler stores after a write to the document of a code: the write
throws if the code addresses no document, and then nothing is uploaded. The code of the
sheet is read after the write. -/
def uploaded (oPut : Outcome) (codice later : String) (file : Option File) :
    Option (String × File) :=
  if (docPath codice).isSome ∧ oPut = .success then
    file.map fun x => ("schede/" ++ later, x)
  else none

/-- The object that a handler stores is a sheet. -/
theorem uploaded_path {oPut : Outcome} {codice later path : String} {file : Option File} {x : File}
    (hupload : uploaded oPut codice later file = some (path, x)) : path = "schede/" ++ later := by
  simp only [uploaded, Option.ite_none_right_eq_some, Option.map_eq_some_iff,
    Prod.mk.injEq] at hupload
  obtain ⟨_, _, _, hpath, _⟩ := hupload
  exact hpath.symm

/-- The stored objects after an upload. -/
def afterUpload (storage : Path → Option File) : Option (String × File) → Path → Option File
  | none => storage
  | some (path, file) => Function.update storage (child path) (some file)

/-- An upload removes no object. -/
theorem afterUpload_isSome (storage : Path → Option File) (upload : Option (String × File))
    (object : Path) : (afterUpload storage upload object).isSome ↔
      (storage object).isSome ∨ ∃ path file, upload = some (path, file) ∧ child path = object := by
  rcases upload with _ | ⟨path, file⟩
  · simp [afterUpload]
  · by_cases hobject : object = child path
    · subst hobject
      simp [afterUpload]
    · simp [afterUpload, Function.update_of_ne hobject, Ne.symm hobject]

/-- What a handler stores that first writes the document of a code. -/
theorem storage_andThen_putFile {write : Command} (otherwise : Command) {codice later : String}
    (oPut : Outcome) (file : Option File) {b : Backend} (hstorage : (write b).2.storage = b.storage)
    (hthrows : (write b).1 = .exception ↔ docPath codice = none)
    (hotherwise : ∀ b', (otherwise b').2 = b') :
    (write.andThen (fun b' =>
      match file with
      | none => otherwise b'
      | some file => putFile oPut ("schede/" ++ later) file b') b).2.storage =
      afterUpload b.storage (uploaded oPut codice later file) := by
  unfold Command.andThen
  split
  · rename_i b' hwrite
    rw [hwrite] at hstorage hthrows
    dsimp only at hstorage
    simp [uploaded, hthrows.mp rfl, afterUpload, hstorage]
  · rename_i b' hwrite
    rw [hwrite] at hstorage hthrows
    dsimp only at hstorage
    have hpath : (docPath codice).isSome := by
      rw [Option.isSome_iff_ne_none]
      intro hnone
      cases hthrows.mpr hnone
    cases file with
    | none => simp [uploaded, afterUpload, hotherwise, hstorage]
    | some x => cases oPut <;> simp [uploaded, afterUpload, hpath, putFile, hstorage]

/-- A write to the machines leaves the stored objects alone, and throws exactly if the
code addresses no document. -/
theorem addControlloDB_frame (o : Outcome) (controllo : Controllo) (b : Backend) :
    (addControlloDB o controllo b).2.storage = b.storage ∧
      ((addControlloDB o controllo b).1 = .exception ↔ docPath controllo.cod = none) := by
  cases hpath : docPath controllo.cod <;> cases o <;> simp [addControlloDB, hpath]

/-- An update of a machine leaves the stored objects alone, and throws exactly if the
code addresses no document. -/
theorem editControlDB_frame (o : Outcome) (controllo : Controllo) (b : Backend) :
    (editControlDB o controllo b).2.storage = b.storage ∧
      ((editControlDB o controllo b).1 = .exception ↔ docPath controllo.cod = none) := by
  cases hpath : docPath controllo.cod <;> cases o <;> simp [editControlDB, hpath]

/-- Reading a stored document decodes it. -/
theorem getControllo_eq {codice : String} {b : Backend} {p : Path} {data : Doc}
    (hpath : docPath codice = some p) (hdoc : b.controlli.lookup p = some data) :
    getControllo codice b = Controllo.fromSnapshot data := by
  simp [getControllo, hpath, hdoc]

/-- `getControlliPerData`, where its query succeeds. -/
def getControlliPerData (data : DateTime) (hour : String) (b : Backend) : Option (List Controllo) :=
  ((docs b.controlli).filter fun d => d "dataProssimo" = some (.str data.isoDay)).mapM fun d =>
    Controllo.fromSnapshot d hour

/-- `getRevisioniPerData`, where its query succeeds. -/
def getRevisioniPerData (zone : Zone) (start «end» : DateTime) (b : Backend) :
    Option (List RegistroControllo) := do
  let values ← (docs b.registroControlli).mapM RegistroControllo.fromSnapshot
  return values.filter fun e =>
    (e.dataControllo.isBefore zone «end» && e.dataControllo.isAfter zone start) ||
      e.dataControllo.sameMoment zone «end» || e.dataControllo.sameMoment zone start

/-- `getAllControls`, where its query succeeds. -/
def getAllControls (b : Backend) : Option (List Controllo) :=
  (docs b.controlli).mapM fun d => Controllo.fromSnapshot d

/-- Where every document decodes to a record whose code addresses it, the machines are
listed with one record for each document. -/
theorem exists_getAllControls {b : Backend} (hdecode : ∀ p d, b.controlli.lookup p = some d →
    ∃ m, Controllo.fromSnapshot d = some m ∧ docPath m.cod = some p) :
    ∃ ms, getAllControls b = some ms ∧ (ms.map fun m => docPath m.cod).Nodup ∧
      ∀ m, m ∈ ms ↔ ∃ k d, k.length = 1 ∧ b.controlli.lookup k = some d ∧
        Controllo.fromSnapshot d = some m := by
  obtain ⟨ms, hms, hkeys, hmem⟩ := mapM_entries (fun d => Controllo.fromSnapshot d)
    (fun m => (docPath m.cod).getD []) (b.controlli.entries.filter fun e => e.1.length = 1) (by
      intro e he
      obtain ⟨hentry, _⟩ := List.mem_filter.mp he
      obtain ⟨m, hm, hpath⟩ := hdecode _ _ (AList.mem_lookup_iff.mpr hentry)
      exact ⟨m, hm, by rw [hpath, Option.getD_some]⟩)
  refine ⟨ms, hms, ?_, ?_⟩
  · have hnodup : ((b.controlli.entries.filter fun e => e.1.length = 1).map Sigma.fst).Nodup :=
      (List.filter_sublist.map Sigma.fst).nodup b.controlli.nodupKeys
    rw [← hkeys] at hnodup
    exact List.Nodup.of_map (fun p => p.getD []) (by rwa [List.map_map])
  · intro m
    rw [hmem]
    constructor
    · rintro ⟨e, he, hm⟩
      obtain ⟨hentry, hone⟩ := List.mem_filter.mp he
      exact ⟨e.1, e.2, by simpa using hone, AList.mem_lookup_iff.mpr hentry, hm⟩
    · rintro ⟨k, d, hone, hdoc, hm⟩
      exact ⟨⟨k, d⟩, List.mem_filter.mpr ⟨AList.mem_lookup_iff.mp hdoc, by simpa using hone⟩, hm⟩

end EthosApp
