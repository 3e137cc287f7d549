import EthosApp.Dart.DateFormat
import EthosApp.Services.Firestore

/-!
# `DataTypes/RegistroControllo.dart`

The record of a check that has been carried out.
-/

namespace EthosApp

open Dart Firestore

/-- An entry of the register of checks. -/
structure RegistroControllo where
  /-- The code of the machine. -/
  codice : String
  /-- The type of the machine. -/
  tipo : String
  /-- The date of the check. -/
  dataControllo : DateTime
  /-- What was reported. -/
  segnalazioni : String
  /-- The outcome of the check. -/
  esito : Bool
  deriving DecidableEq

namespace RegistroControllo

/-- `RegistroControllo.fromSnapshot`. The hour is not used. Any exception is rendered
as `none`. -/
def fromSnapshot (data : Doc) : Option RegistroControllo := do
  let codice ← asString (data "codice")
  let tipo ← asString (data "tipo")
  let segnalazioni ← asString (data "segnalazioni")
  let giorno ← asString (data "dataControllo")
  let dataControllo ← DateTime.parse giorno
  let esito ← asBool (data "esito")
  return { codice, tipo, dataControllo, segnalazioni, esito }

/-- What a document holds that decodes to an entry. -/
theorem fromSnapshot_spec {data : Doc} {r : RegistroControllo}
    (hdecodes : fromSnapshot data = some r) :
    data "codice" = some (.str r.codice) ∧
      ∃ s, data "dataControllo" = some (.str s) ∧ DateTime.parse s = some r.dataControllo := by
  simp only [fromSnapshot, Option.bind_eq_bind, Option.bind_eq_some_iff, Option.pure_def,
    Option.some.injEq, asString_eq_some] at hdecodes
  obtain ⟨codice, hcodice, _, _, _, _, giorno, hgiorno, t, ht, _, _, rfl⟩ := hdecodes
  exact ⟨hcodice, giorno, hgiorno, ht⟩

/-- `toJson`. -/
def toJson (r : RegistroControllo) : MapLiteral :=
  [("codice", .str r.codice),
    ("segnalazioni", .str r.segnalazioni),
    ("esito", .bool r.esito),
    ("tipo", .str r.tipo),
    ("dataControllo", .str r.dataControllo.isoDay)]

end RegistroControllo

end EthosApp
