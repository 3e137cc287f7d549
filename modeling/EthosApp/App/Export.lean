import EthosApp.App.Guarantees
import EthosApp.Store.RegisterExport

/-!
# The exported register of the app

An export of a range of days draws one row for each check of the registry in the range. After
a run of the app the registry is the replay of the forms that were confirmed, so that the rows
of a PDF are the checks that the clients confirmed.
-/

namespace EthosApp

open Dart Gregorian Firestore DocStore Runs

/-- The row of a check. -/
def Check.row (code : String) (day : CivilDate) (k : Check) : List String :=
  [code, DateFormat.format (.midnight day), k.segnalazioni]

/-- The form texts of days in years of at most four digits determine them. -/
theorem format_injective {day day' : CivilDate} (hday : 0 ≤ day.year ∧ day.year ≤ 9999)
    (hday' : 0 ≤ day'.year ∧ day'.year ≤ 9999)
    (h : DateFormat.format (.midnight day) = DateFormat.format (.midnight day')) : day = day' := by
  have hymd := congrArg (splitReversedJoin '/' '-') h
  rw [DateFormat.splitReversedJoin_format, DateFormat.splitReversedJoin_format,
    String.ofList_inj] at hymd
  exact ymd_injective hday hday' hymd

/-- The row that is drawn for the entry of a check. -/
theorem Check.cells_entry {code : String} {day : CivilDate} {k : Check}
    (hday : 0 ≤ day.year ∧ day.year ≤ 9999) : (k.entry code day).cells = k.row code day := by
  have hdata : splitReversedJoin '-' '/' (DateTime.midnight day).isoDay =
      DateFormat.format (.midnight day) := DateFormat.splitReversedJoin_isoDay hday
  simp [RegistroControllo.cells, entry, row, hdata]

/-- What an export shows of a registry: one row for each check of the range, or a message
where there is none. -/
structure ExportedAs (A : Registry) (start finish : CivilDate) (save : PdfGrid → Option (List ℕ))
    (oWrite : Outcome) (out : PdfExport) : Prop where
  /-- The rows are those of the checks of the range. -/
  mem_rows : ∀ row, (∃ grid, out.grid = some grid ∧ row ∈ grid.rows) ↔
    ∃ code day k, (A code).checks day = some k ∧ start ≤ day ∧ day ≤ finish ∧
      row = Check.row code day k
  /-- No row is drawn twice. -/
  nodup : ∀ grid, out.grid = some grid → grid.rows.Nodup
  /-- The bytes of the rows are written exactly where the package gives them and the device
  writes the file. -/
  file : ∀ bytes, (∃ name, out.file = some (name, bytes)) ↔
    ∃ grid, out.grid = some grid ∧ oWrite = .success ∧ save grid = some bytes
  /-- Where there is no check, a message is shown and nothing is drawn or written. -/
  empty : (∀ code day k, (A code).checks day = some k → ¬ (start ≤ day ∧ day ≤ finish)) →
    out = ⟨none, none, some "Non vi è alcun controllo da mostrare"⟩

section

variable {zone : Zone} {A : Registry} {b : Backend} {start finish : CivilDate}
  {rs : List RegistroControllo}

/-- The years of the checks of a represented registry have at most four digits. -/
theorem Represents.year (hb : Represents zone A b) {code : String} {day : CivilDate} {k : Check}
    (hk : (A code).checks day = some k) : 0 ≤ day.year ∧ day.year ≤ 9999 := by
  obtain ⟨hlower, hupper⟩ := (hb.regular code day k hk).year
  exact ⟨le_trans (by decide) hlower, hupper⟩

/-- The rows that are drawn for the checks of a range. -/
theorem Represents.mem_rows (hb : Represents zone A b)
    (hlisted : ∀ r, r ∈ rs ↔ ∃ code day k, (A code).checks day = some k ∧ start ≤ day ∧
      day ≤ finish ∧ r = k.entry code day) (row : List String) :
    row ∈ (pdfGrid rs).rows ↔ ∃ code day k, (A code).checks day = some k ∧ start ≤ day ∧
      day ≤ finish ∧ row = Check.row code day k := by
  simp only [pdfGrid, List.mem_map, hlisted]
  constructor
  · rintro ⟨_, ⟨code, day, k, hk, hstart, hfinish, rfl⟩, rfl⟩
    exact ⟨code, day, k, hk, hstart, hfinish, Check.cells_entry (hb.year hk)⟩
  · rintro ⟨code, day, k, hk, hstart, hfinish, rfl⟩
    exact ⟨_, ⟨code, day, k, hk, hstart, hfinish, rfl⟩, Check.cells_entry (hb.year hk)⟩

/-- Different entries are drawn in different rows: a row shows the code and the day. -/
theorem Represents.nodup_rows (hb : Represents zone A b) (hnodup : rs.Nodup)
    (hlisted : ∀ r ∈ rs, ∃ code day k, (A code).checks day = some k ∧ r = k.entry code day) :
    (pdfGrid rs).rows.Nodup := by
  refine List.Nodup.map_on ?_ hnodup
  intro r hr r' hr' h
  obtain ⟨code, day, k, hk, rfl⟩ := hlisted r hr
  obtain ⟨code', day', k', hk', rfl⟩ := hlisted r' hr'
  rw [Check.cells_entry (hb.year hk), Check.cells_entry (hb.year hk')] at h
  simp only [Check.row, List.cons.injEq] at h
  obtain ⟨rfl, hday, _⟩ := h
  obtain rfl := format_injective (hb.year hk) (hb.year hk') hday
  rw [hk] at hk'
  cases hk'
  rfl

/-- An export of a represented registry shows its checks. -/
theorem Represents.createPdf (hb : Represents zone A b) (hrange : start ≤ finish)
    (save : PdfGrid → Option (List ℕ)) (path : String) (oWrite oOpen : Outcome) :
    ∃ out, createPdf zone save path oWrite oOpen (.midnight start) (.midnight finish) b =
      some out ∧ ExportedAs A start finish save oWrite out := by
  obtain ⟨rs, hrs, hnodup, hlisted⟩ := hb.getRevisioniPerData start finish hrange
  have hmem := hb.mem_rows hlisted
  rw [EthosApp.createPdf, hrs, Option.bind_eq_bind, Option.bind_some]
  split
  · rename_i hnone
    subst hnone
    refine ⟨_, rfl, ?_, by simp, by simp, fun _ => rfl⟩
    intro row
    rw [← hmem]
    simp [pdfGrid]
  · rename_i hsome
    obtain ⟨hgrid, hfile⟩ := savePdf_spec save path
      ("Registro " ++ (DateTime.midnight start).isoDay ++ "-" ++
        (DateTime.midnight finish).isoDay) oWrite oOpen (pdfGrid rs)
    refine ⟨_, rfl, ?_, ?_, ?_, ?_⟩
    · intro row
      rw [← hmem, hgrid]
      simp
    · rintro grid hdrawn
      rw [hgrid, Option.some.injEq] at hdrawn
      rw [← hdrawn]
      refine hb.nodup_rows hnodup fun r hr => ?_
      obtain ⟨code, day, k, hk, _, _, hr⟩ := (hlisted r).mp hr
      exact ⟨code, day, k, hk, hr⟩
    · intro bytes
      simp only [hfile, hgrid, Option.some.injEq]
      constructor
      · rintro ⟨_, hwrite, hsave, _⟩
        exact ⟨_, rfl, hwrite, hsave⟩
      · rintro ⟨_, rfl, hwrite, hsave⟩
        exact ⟨_, hwrite, hsave, rfl⟩
    · intro hempty
      refine absurd (List.eq_nil_iff_forall_not_mem.mpr fun r hr => ?_) hsome
      obtain ⟨code, day, k, hk, hstart, hfinish, rfl⟩ := (hlisted r).mp hr
      exact hempty code day k hk ⟨hstart, hfinish⟩

end

namespace App

/-- **The exported register.** After every run of any number of clients whose codes are no
paths and whose dates have years of four digits, an export of a range of days draws one row
for each machine and each day of the range on which a check of it was registered, with what
the last of these checks reported. The file is written with the bytes of these rows exactly
where the package gives them and the device writes it. -/
theorem export_of_run {zone : Zone} {signedIn : ℕ → Bool} {hist : List (State × Event)} {s : State}
    (hrun : Run (step zone) (State.start signedIn) hist s)
    (hplain : ∀ e ∈ eventLog zone hist, EthosApp.Event.Plain e) {start finish : CivilDate}
    (hrange : start ≤ finish) (save : PdfGrid → Option (List ℕ)) (path : String)
    (oWrite oOpen : Outcome) :
    ∃ out, createPdf zone save path oWrite oOpen (.midnight start) (.midnight finish) s.backend =
      some out ∧
      ExportedAs (Registry.empty.replay (eventLog zone hist)) start finish save oWrite out :=
  (represents_of_run hrun hplain).createPdf hrange save path oWrite oOpen

/-- The check that one of the two clients confirmed is exported. -/
theorem export_of_run_two :
    ∃ out, createPdf (Zone.fixed 3600 Zone.hour_lt_day) (fun _ => some []) "/documents" .success
        .success (.midnight (.normalize 2023 1 16)) (.midnight (.normalize 2023 1 16))
        (runTwoClients.get runTwoClients_isSome).2.backend = some out ∧
      ExportedAs (Registry.empty.replay (eventLog (Zone.fixed 3600 Zone.hour_lt_day)
        (runTwoClients.get runTwoClients_isSome).1)) (.normalize 2023 1 16)
        (.normalize 2023 1 16) (fun _ => some []) .success out :=
  export_of_run (run_get runTwoClients_isSome) (by decide +kernel) le_rfl _ _ _ _

end App

end EthosApp
