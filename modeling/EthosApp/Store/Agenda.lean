import EthosApp.Dart.UtcText
import EthosApp.Services.DatabaseCommand
import EthosApp.Store.Codec

/-!
# The agenda of a day

`getControlliPerData` compares the stored text of the next check with the ten characters
of the day that is asked for. Both are the text `YYYY-MM-DD` of a day, whatever the time
of day and the UTC flag of the dates that they were taken from.
-/

namespace EthosApp

open Dart Gregorian Firestore DocStore

/-- The ten characters of two dates agree exactly if the dates are of one day. -/
theorem isoDay_inj {s t : DateTime} (hs : 0 ≤ s.date.year ∧ s.date.year ≤ 9999)
    (ht : 0 ≤ t.date.year ∧ t.date.year ≤ 9999) : s.isoDay = t.isoDay ↔ s.date = t.date := by
  constructor
  · intro h
    rw [DateTime.isoDay_eq hs, DateTime.isoDay_eq ht, String.ofList_inj] at h
    exact ymd_injective hs ht h
  · exact DateTime.isoDay_congr

namespace Agenda

/-- A command that writes a machine, with the answer of the server. -/
inductive Call
  /-- A call of `addControlloDB`. -/
  | add (o : Outcome) (controllo : Controllo)
  /-- A call of `editControlDB`. -/
  | edit (o : Outcome) (controllo : Controllo)

/-- The record handed to a command. -/
def Call.controllo : Call → Controllo
  | .add _ c => c
  | .edit _ c => c

/-- The command of a call. -/
def Call.command : Call → Command
  | .add o c => addControlloDB o c
  | .edit o c => editControlDB o c

/-- The remote state after a sequence of calls. -/
def stored (calls : List Call) : Backend :=
  calls.foldl (fun b a => (a.command b).2) Backend.empty

/-- A document is that of a machine, as every reader decodes it. -/
structure Holds (d : Doc) (m : Controllo) : Prop where
  /-- The dates have years of at most four digits. -/
  years : m.FourDigitYears
  /-- The record is decoded with both dates at the hour of the reader. -/
  fromSnapshot : ∀ h : Hour, Controllo.fromSnapshot d h.text = some (m.atHour h)
  /-- The stored text of the next check. -/
  dataProssimo : d "dataProssimo" = some (.str m.dataProssimoControllo.isoDay)
  /-- The document has no key for the sheet. -/
  schedaControllo : d "schedaControllo" = none

/-- The record that is decoded where no hour is given. -/
theorem Holds.fromSnapshot_default {d : Doc} {m : Controllo} (hm : Holds d m) :
    Controllo.fromSnapshot d = some (m.atHour Hour.zero) := by
  have hzero := hm.fromSnapshot Hour.zero
  rwa [zero_text] at hzero

/-- A document over which a record was written is that of a machine with its code. -/
theorem holds_overwrite {d : Doc} {c : Controllo} (hyears : c.FourDigitYears)
    (hscheda : d "schedaControllo" = none) :
    ∃ m, Holds (overwrite d c.toJson) m ∧ m.cod = c.cod := by
  refine ⟨{ c with scheda := "schede/" ++ c.cod }, ⟨hyears, ?_, ?_, ?_⟩, rfl⟩
  · intro h
    rw [Controllo.fromSnapshot_overwrite d h hyears, Controllo.schedaOf, hscheda]
    rfl
  · exact overwrite_of_lookup c.toJson_lookup.2.2.2.2.2.1
  · rw [Controllo.overwrite_schedaControllo, hscheda]

/-- All documents are those of machines, under the paths of their codes. -/
abbrev AllHold (b : Backend) : Prop :=
  AllDocs (fun p d => ∃ m, Holds d m ∧ docPath m.cod = some p) b.controlli

/-- A call leaves documents of machines. -/
theorem AllHold.command {b : Backend} {a : Call} (hb : AllHold b)
    (hyears : a.controllo.FourDigitYears) : AllHold (a.command b).2 := by
  cases a with
  | add o c =>
    rw [Call.command, addControlloDB_snd]
    split
    · exact hb
    · rename_i p hpath
      obtain ⟨_, hpath⟩ := writtenPath_eq_some.mp hpath
      refine (allDocs_insert_iff hb).mpr ?_
      rw [ofMap_eq_overwrite]
      obtain ⟨m, hm, hcod⟩ := holds_overwrite (d := fun _ => none) hyears rfl
      exact ⟨m, hm, by rw [hcod]; exact hpath⟩
  | edit o c =>
    rw [Call.command, editControlDB_snd]
    split
    · exact hb
    · rename_i p hpath
      obtain ⟨_, hpath⟩ := writtenPath_eq_some.mp hpath
      cases hdoc : b.controlli.lookup p with
      | none =>
        rw [updateDoc_of_none hdoc]
        exact hb
      | some d =>
        rw [updateDoc_of_lookup hdoc]
        obtain ⟨_, hold, _⟩ := hb p d hdoc
        refine (allDocs_insert_iff hb).mpr ?_
        obtain ⟨m, hm, hcod⟩ := holds_overwrite hyears hold.schedaControllo
        exact ⟨m, hm, by rw [hcod]; exact hpath⟩

/-- All documents that calls have written are those of machines. -/
theorem allHold_stored {calls : List Call} (hyears : ∀ a ∈ calls, a.controllo.FourDigitYears) :
    AllHold (stored calls) := by
  refine List.foldlRecOn calls _ (allDocs_empty _) ?_
  intro b hb a ha
  exact hb.command (hyears a ha)

/-- The agenda is what is selected from the list of machines by the day of the next check,
with both dates at the hour of the reader. -/
theorem getControlliPerData_eq {b : Backend} (hb : AllHold b) {ms : List Controllo}
    (hms : getAllControls b = some ms) {g : DateTime} (h : Hour)
    (hg : 0 ≤ g.date.year ∧ g.date.year ≤ 9999) :
    getControlliPerData g h.text b =
      some ((ms.filter fun m => m.dataProssimoControllo.date = g.date).map
        (Controllo.atHour h)) := by
  refine mapM_filter hms ?_
  intro d hd r hr
  obtain ⟨p, _, hdoc⟩ := mem_docs.mp hd
  obtain ⟨m, hm, _⟩ := hb p d hdoc
  rw [hm.fromSnapshot_default, Option.some.injEq] at hr
  subst hr
  constructor
  · rw [Controllo.atHour_atHour]
    exact hm.fromSnapshot h
  · rw [decide_eq_decide, Controllo.atHour_date, hm.dataProssimo, Option.some.injEq,
      Value.str.injEq]
    exact isoDay_inj hm.years.2 hg

/-- A listed machine has dates of four digits. -/
theorem years_of_mem {b : Backend} (hb : AllHold b) {ms : List Controllo} {m : Controllo}
    (hlisted : ∀ m, m ∈ ms ↔ ∃ k d, k.length = 1 ∧ b.controlli.lookup k = some d ∧
      Controllo.fromSnapshot d = some m) (hm : m ∈ ms) : m.FourDigitYears := by
  obtain ⟨k, d, _, hdoc, hdecode⟩ := (hlisted m).mp hm
  obtain ⟨r, hr, _⟩ := hb k d hdoc
  rw [hr.fromSnapshot_default, Option.some.injEq] at hdecode
  rw [← hdecode, Controllo.atHour_years]
  exact hr.years

/-- **The agenda of a day.** After any calls with years of at most four digits, the
machines can be listed, under different codes. The agenda of a date, local or in UTC and
of any time of day, consists of exactly the machines whose next check falls on its day,
each of them once and decoded to that day, so that each machine is in the agenda of
exactly one day. -/
theorem agenda_exact {calls : List Call} (hyears : ∀ a ∈ calls, a.controllo.FourDigitYears) :
    ∃ ms, getAllControls (stored calls) = some ms ∧ (ms.map Controllo.cod).Nodup ∧
      (∀ (g : DateTime) (h : Hour), 0 ≤ g.date.year ∧ g.date.year ≤ 9999 →
        getControlliPerData g h.text (stored calls) =
          some ((ms.filter fun m => m.dataProssimoControllo.date = g.date).map
            (Controllo.atHour h))) ∧
      ∀ m ∈ ms, ∀ h : Hour, ∃! day : CivilDate, (0 ≤ day.year ∧ day.year ≤ 9999) ∧
        ∀ g : DateTime, g.date = day → ∃ agenda,
          getControlliPerData g h.text (stored calls) = some agenda ∧
            m.cod ∈ agenda.map Controllo.cod := by
  have hb := allHold_stored hyears
  obtain ⟨ms, hms, hnodup, hlisted⟩ := exists_getAllControls (b := stored calls) (by
    intro p d hdoc
    obtain ⟨m, hm, hpath⟩ := hb p d hdoc
    exact ⟨_, hm.fromSnapshot_default, by rwa [Controllo.atHour_cod]⟩)
  have hcodes : (ms.map Controllo.cod).Nodup :=
    List.Nodup.of_map docPath (by rwa [List.map_map])
  refine ⟨ms, hms, hcodes, fun g h hg => getControlliPerData_eq hb hms h hg, ?_⟩
  intro m hm h
  have hday := (years_of_mem hb hlisted hm).2
  refine ⟨m.dataProssimoControllo.date, ⟨hday, ?_⟩, ?_⟩
  · rintro g hg
    refine ⟨_, getControlliPerData_eq hb hms h (by rwa [hg]), ?_⟩
    rw [List.map_map]
    exact List.mem_map.mpr ⟨m, List.mem_filter.mpr ⟨hm, by simp [hg]⟩, rfl⟩
  · rintro day ⟨hyear, hin⟩
    obtain ⟨agenda, hagenda, hmem⟩ := hin (DateTime.midnight day) rfl
    rw [getControlliPerData_eq hb hms h hyear] at hagenda
    cases hagenda
    rw [List.map_map] at hmem
    obtain ⟨m', hm', hcod⟩ := List.mem_map.mp hmem
    obtain ⟨hmem', hdate⟩ := List.mem_filter.mp hm'
    have hsame : m' = m := List.inj_on_of_nodup_map hcodes hmem' hm hcod
    rw [← hsame]
    exact (of_decide_eq_true hdate).symm

/-- A machine with a next check on a day of January 2023. -/
def machine (code : String) (day : ℕ) : Controllo where
  cod := code
  tipo := "Forni"
  periodo := "Annuale"
  descrizione := "Pulizia"
  dataUltimoControllo := .midnight (.normalize 2022 1 15)
  dataProssimoControllo := .midnight (.normalize 2023 1 day)
  scheda := "schede/" ++ code

/-- Two machines are added, and the next check of the second is moved. -/
def twoMachines : List Call :=
  [.add .success (machine "M1" 15), .add .success (machine "M2" 15),
    .edit .success (machine "M2" 16)]

/-- The agendas of two machines. -/
theorem agenda_exact_twoMachines :
    ∃ ms, getAllControls (stored twoMachines) = some ms ∧ (ms.map Controllo.cod).Nodup ∧
      ∀ (g : DateTime) (h : Hour), 0 ≤ g.date.year ∧ g.date.year ≤ 9999 →
        getControlliPerData g h.text (stored twoMachines) =
          some ((ms.filter fun m => m.dataProssimoControllo.date = g.date).map
            (Controllo.atHour h)) := by
  obtain ⟨ms, hms, hnodup, hagenda, _⟩ :=
    agenda_exact (show ∀ a ∈ twoMachines, a.controllo.FourDigitYears by decide)
  exact ⟨ms, hms, hnodup, hagenda⟩

end Agenda

end EthosApp
