import EthosApp.Dart.DateFormat
import EthosApp.Services.Firestore

/-!
# `DataTypes/Controllo.dart`

The record of a machine, and its translation from and to a document.
-/

namespace EthosApp

open Dart Firestore

/-- A registered machine with the dates of its last and next check. -/
structure Controllo where
  /-- The code of the machine. -/
  cod : String
  /-- The type of the machine. -/
  tipo : String
  /-- The period between checks. -/
  periodo : String
  /-- The description of the intervention. -/
  descrizione : String
  /-- The date of the last check. -/
  dataUltimoControllo : DateTime
  /-- The date of the next check. -/
  dataProssimoControllo : DateTime
  /-- The storage path of the inspection sheet. -/
  scheda : String
  deriving DecidableEq

namespace Controllo

/-- `Controllo.fromSnapshot`. Any exception is rendered as `none`. -/
def fromSnapshot (data : Doc) (hour : String := "00:00:00") : Option Controllo := do
  let cod ← asString (data "codice")
  let tipo ← asString (data "tipo")
  let periodo ← asString (data "periodo")
  let descrizione ← asString (data "descrizione")
  let dataUltimo ← asString (data "dataUltimo")
  let dataUltimoControllo ← DateTime.parse (dataUltimo ++ " " ++ hour)
  let dataProssimo ← asString (data "dataProssimo")
  let dataProssimoControllo ← DateTime.parse (dataProssimo ++ " " ++ hour)
  let schedaControllo ← asNullableString (data "schedaControllo")
  return {
    cod, tipo, periodo, descrizione, dataUltimoControllo, dataProssimoControllo
    scheda := schedaControllo.getD ("schede/" ++ cod) }

/-- What a document holds that decodes to a record. -/
theorem fromSnapshot_spec {data : Doc} {hour : String} {c : Controllo}
    (hdecodes : fromSnapshot data hour = some c) :
    asString (data "codice") = some c.cod ∧ asString (data "tipo") = some c.tipo ∧
      asString (data "periodo") = some c.periodo ∧
      asString (data "descrizione") = some c.descrizione ∧
      (∃ s, asString (data "dataUltimo") = some s ∧
        DateTime.parse (s ++ " " ++ hour) = some c.dataUltimoControllo) ∧
      (∃ s, asString (data "dataProssimo") = some s ∧
        DateTime.parse (s ++ " " ++ hour) = some c.dataProssimoControllo) ∧
      (asNullableString (data "schedaControllo")).map (fun s => s.getD ("schede/" ++ c.cod)) =
        some c.scheda := by
  simp only [fromSnapshot, Option.bind_eq_bind, Option.bind_eq_some_iff, Option.pure_def,
    Option.some.injEq] at hdecodes
  obtain ⟨cod, hcod, tipo, htipo, periodo, hperiodo, descrizione, hdescrizione, su, hsu, u, hu,
    sp, hsp, v, hv, scheda, hscheda, rfl⟩ := hdecodes
  exact ⟨hcod, htipo, hperiodo, hdescrizione, ⟨su, hsu, hu⟩, ⟨sp, hsp, hv⟩, by rw [hscheda]; rfl⟩

/-- `toJson`. -/
def toJson (c : Controllo) : MapLiteral :=
  [("codice", .str c.cod),
    ("descrizione", .str c.descrizione),
    ("periodo", .str c.periodo),
    ("scheda", .str c.scheda),
    ("tipo", .str c.tipo),
    ("dataUltimo", .str c.dataUltimoControllo.isoDay),
    ("dataProssimo", .str c.dataProssimoControllo.isoDay)]

/-- The value written under each key that `fromSnapshot` reads. The key `schedaControllo`
of the sheet is not among the written ones. -/
theorem toJson_lookup (c : Controllo) :
    c.toJson.lookup "codice" = some (.str c.cod) ∧
      c.toJson.lookup "tipo" = some (.str c.tipo) ∧
      c.toJson.lookup "periodo" = some (.str c.periodo) ∧
      c.toJson.lookup "descrizione" = some (.str c.descrizione) ∧
      c.toJson.lookup "dataUltimo" = some (.str c.dataUltimoControllo.isoDay) ∧
      c.toJson.lookup "dataProssimo" = some (.str c.dataProssimoControllo.isoDay) ∧
      c.toJson.lookup "schedaControllo" = none :=
  ⟨rfl, rfl, rfl, rfl, rfl, rfl, rfl⟩

/-- The keys written by `toJson`. -/
def keys : List String :=
  ["codice", "descrizione", "periodo", "scheda", "tipo", "dataUltimo", "dataProssimo"]

/-- `toJson` writes exactly these keys. -/
theorem toJson_keys (c : Controllo) : c.toJson.map Prod.fst = keys := rfl

/-- A key outside the written ones is not looked up successfully. -/
theorem toJson_lookup_eq_none {c : Controllo} {k : String} (hk : k ∉ keys) :
    c.toJson.lookup k = none := by
  rw [List.lookup_eq_none_iff]
  intro e he
  rw [bne_iff_ne]
  rintro rfl
  exact hk (toJson_keys c ▸ List.mem_map_of_mem he)

/-- The fields of a machine that a user can change. -/
inductive Campo
  | tipo
  | periodo
  | descrizione
  | dataUltimo
  | dataProssimo
  deriving DecidableEq

/-- The key of a field in the document. -/
def Campo.key : Campo → String
  | .tipo => "tipo"
  | .periodo => "periodo"
  | .descrizione => "descrizione"
  | .dataUltimo => "dataUltimo"
  | .dataProssimo => "dataProssimo"

/-- What a form that shows a text for a field stores for it: the text of a date is parsed
first. -/
def Campo.stored : Campo → String → Option String
  | .dataUltimo, s => (DateTimeField.typed s).parsed.map DateTime.isoDay
  | .dataProssimo, s => (DateTimeField.typed s).parsed.map DateTime.isoDay
  | _, s => some s

/-- The text that a record stores under a field. -/
def text (c : Controllo) : Campo → String
  | .tipo => c.tipo
  | .periodo => c.periodo
  | .descrizione => c.descrizione
  | .dataUltimo => c.dataUltimoControllo.isoDay
  | .dataProssimo => c.dataProssimoControllo.isoDay

/-- The date under a field, if it holds one. -/
def date (c : Controllo) : Campo → Option DateTime
  | .dataUltimo => some c.dataUltimoControllo
  | .dataProssimo => some c.dataProssimoControllo
  | _ => none

/-- `toJson` writes the text of every field under its key. -/
theorem toJson_campo (c : Controllo) (k : Campo) :
    c.toJson.lookup k.key = some (.str (c.text k)) := by
  cases k <;> rfl

end Controllo

end EthosApp
