import EthosApp.Services.DatabaseCommand

/-!
# `Screens/ShowControl.dart`

The page of a machine, which shows a record that was read earlier and opens the sheet at its
storage path.
-/

namespace EthosApp

open Dart Firestore

/-- The texts of the page. -/
structure ControlView where
  /-- The title of the bar. -/
  titolo : String
  /-- The text of `_codice`. -/
  codice : String
  /-- The text of `_tipo`. -/
  tipo : String
  /-- The text of `_periodo`. -/
  periodo : String
  /-- The text of `_descrizione`. -/
  descrizione : String
  /-- The text of `_dataUltimoControllo`. -/
  dataUltimoControllo : String
  /-- The text of `_dataProssimoControllo`. -/
  dataProssimoControllo : String
  /-- The text of `_schedaControllo`. -/
  schedaControllo : String
  deriving DecidableEq

namespace ControlView

/-- `initState` and `build`, on the record `widget.controllo`. -/
def initState (controllo : Controllo) : ControlView where
  titolo := "Macchina " ++ controllo.cod
  codice := controllo.cod
  tipo := controllo.tipo
  periodo := controllo.periodo
  descrizione := controllo.descrizione
  dataUltimoControllo := DateFormat.format controllo.dataUltimoControllo
  dataProssimoControllo := DateFormat.format controllo.dataProssimoControllo
  schedaControllo := controllo.scheda

/-- What a tap on the sheet does. -/
inductive Tap
  /-- The stored file is opened in another application. -/
  | launch (file : File)
  /-- A snack bar is shown. -/
  | snackBar (text : String)
  deriving DecidableEq

/-- `onTap` of the sheet, with the answer to `getDownloadURL` and the outcome of `launchUrl`.
There is no link to a path without an object. -/
def onTap (oUrl oLaunch : Outcome) (v : ControlView) (b : Backend) : Tap :=
  match oUrl, b.storage (child v.schedaControllo), oLaunch with
  | .success, some file, .success => .launch file
  | _, _, _ => .snackBar "Il file non sembra essere raggiungibile"

/-- A file is opened exactly if it is stored at the path that the page shows, and both steps
succeed. -/
theorem onTap_eq_launch {oUrl oLaunch : Outcome} {v : ControlView} {b : Backend} {file : File} :
    v.onTap oUrl oLaunch b = .launch file ↔
      oUrl = .success ∧ oLaunch = .success ∧
        b.storage (child v.schedaControllo) = some file := by
  unfold onTap
  split
  · rename_i hstored
    simp [hstored]
  · rename_i hnone
    simp only [reduceCtorEq, false_iff]
    rintro ⟨rfl, rfl, hstored⟩
    exact hnone file rfl hstored rfl

end ControlView

end EthosApp
