import EthosApp.Services.DatabaseCommand

/-!
# `Services/mostraPdf.dart`

The export of the register. The grid of a PDF document is saved by the package
`syncfusion_flutter_pdf`, whose bytes are written to a file and opened.
-/

namespace EthosApp

open Dart Firestore

/-- The grid of a document: the cells of its header and those of each row. -/
structure PdfGrid where
  /-- The cells of the header. -/
  header : List String
  /-- The cells of each row. -/
  rows : List (List String)
  deriving DecidableEq

/-- What an export draws, writes and shows. -/
structure PdfExport where
  /-- The grid drawn on the page, if a document is made. -/
  grid : Option PdfGrid
  /-- The path and the bytes of the file, if one is written. -/
  file : Option (String × List ℕ)
  /-- The text of the snack bar, if one is shown. -/
  snackBar : Option String
  deriving DecidableEq

/-- The row of an entry:
`dataControllo.toIso8601String().substring(0,10).split("-").reversed.join("/")` between
`codice` and `segnalazioni`. -/
def RegistroControllo.cells (r : RegistroControllo) : List String :=
  [r.codice, splitReversedJoin '-' '/' r.dataControllo.isoDay, r.segnalazioni]

/-- The grid of a list of entries. -/
def pdfGrid (lista : List RegistroControllo) : PdfGrid where
  header := ["Codice", "Data", "Segnalazioni"]
  rows := lista.map RegistroControllo.cells

/-- The end of `createPdf`, from `document.save()` on. The package may fail to give the
bytes of the document, rendered as `none`, which ends the function with an exception. -/
def savePdf (save : PdfGrid → Option (List ℕ)) (path fileName : String) (oWrite oOpen : Outcome)
    (grid : PdfGrid) : PdfExport :=
  match save grid, oWrite, oOpen with
  | none, _, _ => ⟨some grid, none, none⟩
  | some _, .failure, _ => ⟨some grid, none, some "Si è verificato un errore, riprovare"⟩
  | some bytes, .success, .failure =>
    ⟨some grid, some (path ++ "/" ++ fileName ++ ".pdf", bytes),
      some "Si è verificato un errore, riprovare"⟩
  | some bytes, .success, .success =>
    ⟨some grid, some (path ++ "/" ++ fileName ++ ".pdf", bytes), none⟩

/-- `createPdf`, in a zone, with the directory of the device's documents and the outcomes
of writing and opening the file. An exception of the query is rendered as `none`. -/
def createPdf (zone : Zone) (save : PdfGrid → Option (List ℕ)) (path : String)
    (oWrite oOpen : Outcome) (start «end» : DateTime) (b : Backend) : Option PdfExport := do
  let lista ← getRevisioniPerData zone start «end» b
  if lista = [] then
    return ⟨none, none, some "Non vi è alcun controllo da mostrare"⟩
  else
    let fileName := "Registro " ++ start.isoDay ++ "-" ++ «end».isoDay
    return savePdf save path fileName oWrite oOpen (pdfGrid lista)

/-- The grid is drawn, and a file is written exactly where the package gives the bytes of
the grid and the device writes them. -/
theorem savePdf_spec (save : PdfGrid → Option (List ℕ)) (path fileName : String)
    (oWrite oOpen : Outcome) (grid : PdfGrid) :
    (savePdf save path fileName oWrite oOpen grid).grid = some grid ∧
      ∀ name bytes, (savePdf save path fileName oWrite oOpen grid).file = some (name, bytes) ↔
        oWrite = .success ∧ save grid = some bytes ∧ name = path ++ "/" ++ fileName ++ ".pdf" := by
  unfold savePdf
  split
  · rename_i hsave
    simp [hsave]
  · simp
  · rename_i hsave
    refine ⟨rfl, fun name bytes => ?_⟩
    simp only [hsave, Option.some.injEq, Prod.mk.injEq, true_and]
    tauto
  · rename_i hsave
    refine ⟨rfl, fun name bytes => ?_⟩
    simp only [hsave, Option.some.injEq, Prod.mk.injEq, true_and]
    tauto

end EthosApp
