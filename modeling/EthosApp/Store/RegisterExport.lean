import EthosApp.Services.MostraPdf
import EthosApp.Store.Register

/-!
# What the exported register contains

An entry is stored with the ten characters of its day, which are decoded to the local
midnight of that day, compared with the midnights of a range, and printed in the order
of the form texts.
-/

namespace EthosApp

open Dart Gregorian Firestore DocStore

namespace RegisterExport

/-- A call of `registroControllo`. -/
structure Call where
  /-- The zone of the device. -/
  zone : Zone
  /-- The answer of the server. -/
  o : Outcome
  /-- The entry that is registered. -/
  controllo : RegistroControllo

/-- The remote state after a sequence of calls. -/
def registered (calls : List Call) : Backend :=
  calls.foldl (fun b a => (registroControllo a.zone a.o a.controllo b).2) Backend.empty

/-- An entry of a year with at most four digits. -/
def FourDigitYear (r : RegistroControllo) : Prop :=
  0 ≤ r.dataControllo.date.year ∧ r.dataControllo.date.year ≤ 9999

instance (r : RegistroControllo) : Decidable (FourDigitYear r) :=
  inferInstanceAs (Decidable (_ ∧ _))

/-- All documents are those of entries. -/
abbrev AllEntries (b : Backend) : Prop :=
  AllDocs (fun _ d => ∃ r, d = ofMap r.toJson ∧ FourDigitYear r) b.registroControlli

/-- Every document that calls have written is that of an entry. -/
theorem allEntries_registered {calls : List Call}
    (hyears : ∀ a ∈ calls, FourDigitYear a.controllo) : AllEntries (registered calls) := by
  refine List.foldlRecOn calls _ (show AllEntries Backend.empty from allDocs_empty _) ?_
  intro b hb a ha
  rw [AllEntries, registroControllo_snd]
  split
  · exact hb
  · exact (allDocs_insert_iff hb).mpr ⟨_, rfl, hyears a ha⟩

/-- The document of an entry is decoded at the midnight of its day, to an entry that has
the same document. -/
theorem decode_registered {r : RegistroControllo} (hyear : FourDigitYear r) :
    ∃ r', RegistroControllo.fromSnapshot (ofMap r.toJson) = some r' ∧ r'.AtMidnight ∧
      FourDigitYear r' ∧ ofMap r'.toJson = ofMap r.toJson := by
  refine ⟨{ r with dataControllo := DateTime.midnight r.dataControllo.date }, ?_, rfl, hyear, ?_⟩
  · rw [RegistroControllo.fromSnapshot_ofMap, ← DateTime.isoDay_midnight,
      DateTime.parse_isoDay_midnight hyear]
    rfl
  · simp [RegistroControllo.toJson]

/-- The documents of the register, in the order of a query, are those of the entries that
are decoded from them. -/
theorem exists_decoded {calls : List Call} (hyears : ∀ a ∈ calls, FourDigitYear a.controllo) :
    ∃ es, (docs (registered calls).registroControlli).mapM RegistroControllo.fromSnapshot =
        some es ∧
      docs (registered calls).registroControlli = es.map (fun r => ofMap r.toJson) ∧
      ∀ r ∈ es, r.AtMidnight ∧ FourDigitYear r := by
  have hdoc : ∀ d ∈ docs (registered calls).registroControlli, ∃ r,
      RegistroControllo.fromSnapshot d = some r ∧ r.AtMidnight ∧ FourDigitYear r ∧
        ofMap r.toJson = d := by
    intro d hd
    obtain ⟨p, _, hlookup⟩ := mem_docs.mp hd
    obtain ⟨r, rfl, hyear⟩ := allEntries_registered hyears p d hlookup
    exact decode_registered hyear
  obtain ⟨es, hes, hkeys, hmem⟩ := mapM_keys RegistroControllo.fromSnapshot
    (fun r => ofMap r.toJson) id (docs (registered calls).registroControlli) (by
      intro d hd
      obtain ⟨r, hr, _, _, hkey⟩ := hdoc d hd
      exact ⟨r, hr, hkey⟩)
  refine ⟨es, hes, by rw [hkeys, List.map_id], ?_⟩
  intro r hr
  obtain ⟨d, hd, hdecode⟩ := (hmem r).mp hr
  obtain ⟨r', hr', hmidnight, hyear, _⟩ := hdoc d hd
  rw [hdecode] at hr'
  cases hr'
  exact ⟨hmidnight, hyear⟩

/-- The checks of a range are the decoded entries whose day is in the range. -/
theorem getRevisioniPerData_eq (zone : Zone) {b : Backend} {es : List RegistroControllo}
    (hes : (docs b.registroControlli).mapM RegistroControllo.fromSnapshot = some es)
    (hmidnight : ∀ r ∈ es, r.AtMidnight) {start finish : CivilDate} (hrange : start ≤ finish) :
    getRevisioniPerData zone (DateTime.midnight start) (DateTime.midnight finish) b =
      some (es.filter fun r => start ≤ r.dataControllo.date ∧ r.dataControllo.date ≤ finish) := by
  rw [getRevisioniPerData, hes, Option.bind_eq_bind, Option.bind_some, Option.pure_def]
  congr 1
  refine List.filter_congr fun r hr => ?_
  rw [hmidnight r hr, Bool.eq_iff_iff, Confirms.inRange_iff hrange, decide_eq_true_eq]
  rfl

/-- **The exported register.** After any calls with years of at most four digits, the
documents of the register are those of a list of entries, in the order of the query, and
an export of a range of days draws one row for each entry of the list whose day is in the
range, in this order, with its code, its day as `dd/MM/yyyy` and its reports. Where no day
is in the range, nothing is drawn or written. Otherwise a file named after the range is
written exactly where the package gives the bytes of the grid and the device writes them. -/
theorem createPdf_rows {calls : List Call} (hyears : ∀ a ∈ calls, FourDigitYear a.controllo) :
    ∃ es : List RegistroControllo,
      docs (registered calls).registroControlli = es.map (fun r => ofMap r.toJson) ∧
      ∀ (zone : Zone) (save : PdfGrid → Option (List ℕ)) (path : String) (oWrite oOpen : Outcome)
        (start finish : CivilDate), start ≤ finish →
        ∃ out, createPdf zone save path oWrite oOpen (DateTime.midnight start)
            (DateTime.midnight finish) (registered calls) = some out ∧
          ((∀ r ∈ es, ¬ (start ≤ r.dataControllo.date ∧ r.dataControllo.date ≤ finish)) →
            out.grid = none ∧ out.file = none) ∧
          ((∃ r ∈ es, start ≤ r.dataControllo.date ∧ r.dataControllo.date ≤ finish) →
            ∃ grid, out.grid = some grid ∧
              grid.rows = (es.filter fun r => start ≤ r.dataControllo.date ∧
                r.dataControllo.date ≤ finish).map (fun r =>
                  [r.codice, DateFormat.format r.dataControllo, r.segnalazioni]) ∧
              ∀ name bytes, out.file = some (name, bytes) ↔
                oWrite = .success ∧ save grid = some bytes ∧
                  name = path ++ "/" ++ ("Registro " ++ (DateTime.midnight start).isoDay ++ "-" ++
                    (DateTime.midnight finish).isoDay) ++ ".pdf") := by
  obtain ⟨es, hes, hdocs, hentries⟩ := exists_decoded hyears
  refine ⟨es, hdocs, ?_⟩
  intro zone save path oWrite oOpen start finish hrange
  have hquery := getRevisioniPerData_eq zone hes (fun r hr => (hentries r hr).1) hrange
  rw [createPdf, hquery, Option.bind_eq_bind, Option.bind_some]
  split
  · rename_i hnone
    refine ⟨_, rfl, fun _ => ⟨rfl, rfl⟩, ?_⟩
    rintro ⟨r, hr, hday⟩
    rw [List.filter_eq_nil_iff] at hnone
    exact absurd (by simpa using hday) (hnone r hr)
  · rename_i hsome
    obtain ⟨hgrid, hfile⟩ := savePdf_spec save path
      ("Registro " ++ (DateTime.midnight start).isoDay ++ "-" ++
        (DateTime.midnight finish).isoDay) oWrite oOpen
      (pdfGrid (es.filter fun r => start ≤ r.dataControllo.date ∧ r.dataControllo.date ≤ finish))
    refine ⟨_, rfl, ?_, ?_⟩
    · intro hnone
      refine absurd (List.filter_eq_nil_iff.mpr fun r hr => ?_) hsome
      simpa using hnone r hr
    · intro _
      refine ⟨_, hgrid, ?_, hfile⟩
      refine List.map_congr_left fun r hr => ?_
      have hyear := (hentries r (List.mem_of_mem_filter hr)).2
      rw [RegistroControllo.cells, DateFormat.splitReversedJoin_isoDay hyear]

/-- An entry of a day of January 2023. -/
def entry (day : ℕ) (report : String) : RegistroControllo where
  codice := "M1"
  tipo := "Forni"
  dataControllo := .midnight (.normalize 2023 1 day)
  segnalazioni := report
  esito := true

/-- Two checks are registered. -/
def twoChecks : List Call :=
  [⟨Zone.fixed 3600 Zone.hour_lt_day, .success, entry 16 "Nessuna"⟩,
    ⟨Zone.fixed 3600 Zone.hour_lt_day, .success, entry 17 "Perdita"⟩]

/-- The day of the second check. -/
def seventeenth : CivilDate := .normalize 2023 1 17

/-- The export of the day of the second check. -/
theorem createPdf_twoChecks :
    createPdf (Zone.fixed 3600 Zone.hour_lt_day) (fun grid => some [grid.rows.length]) "/documents"
        .success .success (.midnight seventeenth) (.midnight seventeenth) (registered twoChecks) =
      some ⟨some ⟨["Codice", "Data", "Segnalazioni"], [["M1", "17/01/2023", "Perdita"]]⟩,
        some ("/documents/Registro 2023-01-17-2023-01-17.pdf", [1]), none⟩ := by
  decide +kernel

/-- The row of the check of that day is the only one that is drawn, and it is written. -/
theorem createPdf_rows_twoChecks :
    ∃ es : List RegistroControllo,
      docs (registered twoChecks).registroControlli = es.map (fun r => ofMap r.toJson) ∧
      ∃ out grid, createPdf (Zone.fixed 3600) (fun grid => some [grid.rows.length]) "/documents"
          .success .success (.midnight seventeenth) (.midnight seventeenth) (registered twoChecks) =
          some out ∧
        out.grid = some grid ∧ grid.rows = [["M1", "17/01/2023", "Perdita"]] ∧
        grid.rows = (es.filter fun r => seventeenth ≤ r.dataControllo.date ∧
          r.dataControllo.date ≤ seventeenth).map (fun r =>
            [r.codice, DateFormat.format r.dataControllo, r.segnalazioni]) ∧
        out.file = some ("/documents/Registro 2023-01-17-2023-01-17.pdf", [1]) := by
  obtain ⟨es, hdocs, hexport⟩ :=
    createPdf_rows (show ∀ a ∈ twoChecks, FourDigitYear a.controllo by decide)
  obtain ⟨out, hout, hnone, hrows⟩ := hexport (Zone.fixed 3600)
    (fun grid => some [grid.rows.length]) "/documents" .success .success seventeenth _ le_rfl
  have hrun := createPdf_twoChecks
  rw [hout, Option.some.injEq] at hrun
  have hday : ∃ r ∈ es, seventeenth ≤ r.dataControllo.date ∧
      r.dataControllo.date ≤ seventeenth := by
    by_contra hno
    have hgrid := (hnone fun r hr hday => hno ⟨r, hr, hday⟩).1
    simp [hrun] at hgrid
  obtain ⟨grid, hgrid, hlist, hfile⟩ := hrows hday
  refine ⟨es, hdocs, out, grid, hout, hgrid, ?_, hlist, ?_⟩
  · rw [hrun, Option.some.injEq] at hgrid
    rw [← hgrid]
  · rw [hrun]

end RegisterExport

end EthosApp
