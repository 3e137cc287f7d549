import EthosApp.Dart.DateText
import EthosApp.DataTypes.Controllo
import EthosApp.DataTypes.RegistroControllo

/-!
# Decoding what was encoded

`toJson` writes seven fields of a machine document, and `fromSnapshot` reads seven. The
lemmas of this file decode a document over which a record has been written, whatever
the document held before.
-/

namespace EthosApp

open Dart Firestore DocStore

namespace Controllo

/-- Both dates of a record have years of at most four digits and no sign. -/
def FourDigitYears (c : Controllo) : Prop :=
  (0 ≤ c.dataUltimoControllo.date.year ∧ c.dataUltimoControllo.date.year ≤ 9999) ∧
    0 ≤ c.dataProssimoControllo.date.year ∧ c.dataProssimoControllo.date.year ≤ 9999

instance (c : Controllo) : Decidable c.FourDigitYears := inferInstanceAs (Decidable (_ ∧ _))

/-- A record with both dates moved to an hour of their days. -/
def atHour (h : Hour) (c : Controllo) : Controllo :=
  { c with
    dataUltimoControllo := ⟨c.dataUltimoControllo.date, h.micros, false, h.micros_lt⟩
    dataProssimoControllo := ⟨c.dataProssimoControllo.date, h.micros, false, h.micros_lt⟩ }

/-- The code does not depend on the hour. -/
@[simp] theorem atHour_cod (h : Hour) (c : Controllo) : (c.atHour h).cod = c.cod := rfl

/-- The day of the next check does not depend on the hour. -/
@[simp] theorem atHour_date (h : Hour) (c : Controllo) :
    (c.atHour h).dataProssimoControllo.date = c.dataProssimoControllo.date := rfl

/-- The sheet does not depend on the hour. -/
@[simp] theorem atHour_scheda (h : Hour) (c : Controllo) : (c.atHour h).scheda = c.scheda := rfl

/-- Only the last hour counts. -/
@[simp] theorem atHour_atHour (h h' : Hour) (c : Controllo) :
    (c.atHour h').atHour h = c.atHour h := rfl

/-- The years do not depend on the hour. -/
theorem atHour_years {h : Hour} {c : Controllo} :
    (c.atHour h).FourDigitYears ↔ c.FourDigitYears := Iff.rfl

/-- Equality of two records in all seven fields, with dates compared by calendar day. -/
structure SameDays (c c' : Controllo) : Prop where
  /-- The codes agree. -/
  cod : c.cod = c'.cod
  /-- The types agree. -/
  tipo : c.tipo = c'.tipo
  /-- The periods agree. -/
  periodo : c.periodo = c'.periodo
  /-- The descriptions agree. -/
  descrizione : c.descrizione = c'.descrizione
  /-- The last checks fall on one day. -/
  dataUltimo : c.dataUltimoControllo.date = c'.dataUltimoControllo.date
  /-- The next checks fall on one day. -/
  dataProssimo : c.dataProssimoControllo.date = c'.dataProssimoControllo.date
  /-- The sheet paths agree. -/
  scheda : c.scheda = c'.scheda

/-- The sheet path that `fromSnapshot` gives to a document stored under a code. -/
def schedaOf (d : Doc) (codice : String) : Option String :=
  (asNullableString (d "schedaControllo")).map fun s => s.getD ("schede/" ++ codice)

/-- A decodable document has a sheet path, whatever code is looked at. -/
theorem schedaOf_isSome {d : Doc} {hour : String} {c : Controllo}
    (hdecode : fromSnapshot d hour = some c) (codice : String) : (schedaOf d codice).isSome := by
  cases hscheda : asNullableString (d "schedaControllo") with
  | none => simp [fromSnapshot, hscheda] at hdecode
  | some s => simp [schedaOf, hscheda]

/-- The code of a written document. -/
theorem overwrite_codice (d : Doc) (c : Controllo) :
    overwrite d c.toJson "codice" = some (.str c.cod) :=
  overwrite_of_lookup (Controllo.toJson_lookup c).1

/-- Writing a record keeps what the document says about its sheet. -/
theorem overwrite_schedaControllo (d : Doc) (c : Controllo) :
    overwrite d c.toJson "schedaControllo" = d "schedaControllo" :=
  overwrite_of_lookup_none (Controllo.toJson_lookup c).2.2.2.2.2.2

/-- What `fromSnapshot` does with a document over which a record was written. -/
theorem fromSnapshot_overwrite_eq (d : Doc) (c : Controllo) (hour : String) :
    fromSnapshot (overwrite d c.toJson) hour = do
      let dataUltimoControllo ← DateTime.parse (c.dataUltimoControllo.isoDay ++ " " ++ hour)
      let dataProssimoControllo ← DateTime.parse (c.dataProssimoControllo.isoDay ++ " " ++ hour)
      let scheda ← schedaOf d c.cod
      return { c with dataUltimoControllo, dataProssimoControllo, scheda } := by
  cases hscheda : asNullableString (d "schedaControllo") with
  | none => simp [fromSnapshot, overwrite, toJson_lookup, asString, schedaOf, hscheda]
  | some s => simp [fromSnapshot, overwrite, toJson_lookup, asString, schedaOf, hscheda]

/-- **Decoding an overwritten document.** The written fields come back, with the days
at the hour of the reader, except for the sheet: its path is the one that the document
already gave. -/
theorem fromSnapshot_overwrite (d : Doc) (h : Hour) {c : Controllo} (hyears : c.FourDigitYears) :
    fromSnapshot (overwrite d c.toJson) h.text = (schedaOf d c.cod).map fun scheda =>
      { c with
        dataUltimoControllo := ⟨c.dataUltimoControllo.date, h.micros, false, h.micros_lt⟩
        dataProssimoControllo := ⟨c.dataProssimoControllo.date, h.micros, false, h.micros_lt⟩
        scheda := scheda } := by
  have hultimo := DateTime.parse_ymd_hour h hyears.1
  have hprossimo := DateTime.parse_ymd_hour h hyears.2
  rw [← DateTime.isoDay_eq hyears.1] at hultimo
  rw [← DateTime.isoDay_eq hyears.2] at hprossimo
  rw [fromSnapshot_overwrite_eq, hultimo, hprossimo]
  cases schedaOf d c.cod <;> rfl

end Controllo

/-- What `fromSnapshot` does with a registered entry. -/
theorem RegistroControllo.fromSnapshot_ofMap (r : RegistroControllo) :
    fromSnapshot (ofMap r.toJson) =
      (DateTime.parse r.dataControllo.isoDay).map fun t => { r with dataControllo := t } := by
  have hfields : ofMap r.toJson "codice" = some (.str r.codice) ∧
      ofMap r.toJson "tipo" = some (.str r.tipo) ∧
      ofMap r.toJson "segnalazioni" = some (.str r.segnalazioni) ∧
      ofMap r.toJson "dataControllo" = some (.str r.dataControllo.isoDay) ∧
      ofMap r.toJson "esito" = some (.bool r.esito) := ⟨rfl, rfl, rfl, rfl, rfl⟩
  cases hdate : DateTime.parse r.dataControllo.isoDay <;>
    simp [fromSnapshot, hfields, asString, asBool, hdate]

/-- `getControllo` leaves the hour to its default `00:00:00`. -/
theorem zero_text : Hour.zero.text = "00:00:00" := by decide

end EthosApp
