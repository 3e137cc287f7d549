import EthosApp.Store.Codec
import EthosApp.Store.Confirms

/-!
# Sessions on one machine

An edit and a check both write the whole record, built from the copy that their screen
was opened with. The last confirm wins on every field: a field that its user did not
change goes back to what the session read, whatever other sessions stored meanwhile.
-/

namespace EthosApp

open Dart Firestore DocStore Runs Confirms

/-- A reading whose dates have no negative year. -/
def Reading.NonNegativeYears (r : Reading) : Prop :=
  0 ≤ r.controllo.dataUltimoControllo.date.year ∧ 0 ≤ r.controllo.dataProssimoControllo.date.year

instance (r : Reading) : Decidable r.NonNegativeYears := inferInstanceAs (Decidable (_ ∧ _))

/-- The dates of a reading can be represented at midnight. -/
theorem Reading.inRange {r : Reading} {k : Controllo.Campo} {t : DateTime}
    (hyears : r.NonNegativeYears) (hdate : r.controllo.date k = some t) :
    0 ≤ t.date.year ∧ DateTime.InRange (t.date.toDays * microsPerDay) := by
  obtain ⟨_, _, _, _, ⟨_, _, hu⟩, ⟨_, _, hv⟩, _⟩ := Controllo.fromSnapshot_spec r.decodes
  cases k with
  | dataUltimo =>
    cases hdate
    exact ⟨hyears.1, DateTime.inRange_midnight_of_parse hu hyears.1⟩
  | dataProssimo =>
    cases hdate
    exact ⟨hyears.2, DateTime.inRange_midnight_of_parse hv hyears.2⟩
  | _ => cases hdate

namespace Confirms

/-- The reading that a session was opened on. -/
def Action.opened : Action → Option ℕ
  | .edit i _ _ _ => some i
  | .check i _ _ _ => some i
  | _ => none

/-- Whether the user of a session changed a field. A check always enters both dates. -/
def Action.changes (k : Controllo.Campo) : Action → Bool
  | .edit _ actions _ _ => actions.any fun a => a.campo = some k
  | .check _ _ _ _ => k = .dataUltimo ∨ k = .dataProssimo
  | _ => false

/-- The text that the user of a session entered last in a field. -/
def Action.entered (k : Controllo.Campo) : Action → Option String
  | .edit _ actions _ _ => lastEntry (EditControl.Action.entry k) actions
  | .check _ actions _ _ => lastEntry (ControlCheck.Action.entry k) actions
  | _ => none

/-- The path of the sheet that a session on a record writes: an edit sends the path of the
code, and a check the path that was read. -/
def Action.scheda (widget : Controllo) : Action → String
  | .edit _ _ _ _ => "schede/" ++ widget.cod
  | _ => widget.scheda

/-- Every record held was read by an earlier step of the run, as it was then stored. -/
theorem reading_was_stored {zone : Zone} {b : Backend} {hist : List (State × Action)} {s : State}
    (hrun : Run (step zone) ⟨b, []⟩ hist s) {r : Reading} (hr : r ∈ s.readings) :
    ∃ s₀, (s₀, Action.read r.path r.hour) ∈ hist ∧
      s₀.backend.controlli.lookup r.path = some r.data := by
  induction hrun with
  | nil => cases hr
  | snoc _ hlast ih =>
    rcases step_readings hlast with hsame | ⟨r', rfl, hdoc, hnew⟩
    · rw [hsame] at hr
      obtain ⟨s₀, hmem, hdoc⟩ := ih hr
      exact ⟨s₀, List.mem_cons_of_mem _ hmem, hdoc⟩
    · rw [hnew] at hr
      rcases List.mem_cons.mp hr with rfl | hr
      · exact ⟨_, List.mem_cons_self, hdoc⟩
      · obtain ⟨s₀, hmem, hdoc⟩ := ih hr
        exact ⟨s₀, List.mem_cons_of_mem _ hmem, hdoc⟩

/-- **The record of a session.** It keeps the code of the reading, holds what its user entered
last in the fields that were changed, and the texts of the reading in all others. -/
theorem written_of_opened {s : State} {a : Action} {i : ℕ} {r : Reading} {p : Path} {c : Controllo}
    (hopened : a.opened = some i) (hr : s.readings[i]? = some r)
    (hwritten : written s a = some (p, c)) (hyears : r.NonNegativeYears) :
    c.cod = r.controllo.cod ∧ c.scheda = a.scheda r.controllo ∧
      (∀ k, a.changes k = true → ∃ s, a.entered k = some s ∧ k.stored s = some (c.text k)) ∧
      ∀ k, a.changes k = false → c.text k = r.controllo.text k := by
  cases a with
  | read p hour => cases hopened
  | add code actions oSet oPut => cases hopened
  | delete code oDoc oFile => cases hopened
  | edit j actions oUpdate oPut =>
    cases hopened
    obtain ⟨r', f, hr', hf, hwrites, _⟩ := written_edit.mp hwritten
    rw [hr, Option.some.injEq] at hr'
    subst hr'
    obtain ⟨hform, _⟩ := EditControl.writes_eq_some.mp hwrites
    have hcod := EditControl.session_codice hf
    obtain ⟨_, _, hc, _, _, _, hscheda⟩ := EditControl.controllo_eq_some.mp hform
    rw [hcod] at hc hscheda
    refine ⟨hc, hscheda, ?_, ?_⟩
    · intro k hk
      refine EditControl.controllo_entered hf hform ?_
      simpa [Action.changes] using hk
    · intro k hk
      refine EditControl.controllo_text hf hform ?_ fun t => Reading.inRange hyears
      simpa [Action.changes] using hk
  | check j actions oRegistro oUpdate =>
    cases hopened
    obtain ⟨r', f, hr', hf, hwrites, _⟩ := written_check.mp hwritten
    rw [hr, Option.some.injEq] at hr'
    subst hr'
    obtain ⟨_, _, hc, _⟩ := ControlCheck.writes_eq_some.mp hwrites
    refine ⟨by rw [hc]; rfl, by rw [hc]; rfl, ?_, ?_⟩
    · intro k hk
      refine ControlCheck.writes_entered hf hwrites ?_
      simpa [Action.changes] using hk
    · intro k hk
      rw [hc]
      cases k with
      | tipo => rfl
      | periodo => rfl
      | descrizione => rfl
      | dataUltimo => cases hk
      | dataProssimo => cases hk

/-- **What a confirm changes.** In every run from any remote state, a session confirms a
record built from a document that an earlier step read. An executed confirm leaves the
other documents and all other keys alone, sets every field that its user changed to the
text entered last, and every other field to the text of its reading. So it changes only the
fields that its user changed exactly when the other fields still hold what it read. -/
theorem confirm_changes {zone : Zone} {b : Backend} {hist : List (State × Action)} {s t : State}
    {a : Action} {i : ℕ} {r : Reading} {p : Path} {c : Controllo}
    (hrun : Run (step zone) ⟨b, []⟩ hist s) (hstep : step zone s a = some t)
    (hopened : a.opened = some i) (hr : s.readings[i]? = some r)
    (hwritten : written s a = some (p, c)) (hyears : r.NonNegativeYears) :
    (∃ s₀, (s₀, Action.read r.path r.hour) ∈ hist ∧
      s₀.backend.controlli.lookup r.path = some r.data) ∧
    ∃ d e, s.backend.controlli.lookup p = some d ∧ t.backend.controlli.lookup p = some e ∧
      (∀ q, q ≠ p → t.backend.controlli.lookup q = s.backend.controlli.lookup q) ∧
      (∀ k ∉ Controllo.keys, e k = d k) ∧
      e "codice" = some (.str r.controllo.cod) ∧
      e "scheda" = some (.str (a.scheda r.controllo)) ∧
      (∀ k : Controllo.Campo, a.changes k = true →
        ∃ x v, a.entered k = some x ∧ k.stored x = some v ∧ e k.key = some (.str v)) ∧
      (∀ k : Controllo.Campo, a.changes k = false →
        e k.key = some (.str (r.controllo.text k))) ∧
      ((∀ k : Controllo.Campo, a.changes k = false → e k.key = d k.key) ↔
        ∀ k : Controllo.Campo, a.changes k = false →
          d k.key = some (.str (r.controllo.text k))) := by
  refine ⟨reading_was_stored hrun (List.mem_of_getElem? hr), ?_⟩
  obtain ⟨hcod, hscheda, hentered, hkept⟩ := written_of_opened hopened hr hwritten hyears
  have hcreates : a.creates = false := by
    cases a with
    | add code actions oSet oPut => cases hopened
    | _ => rfl
  obtain ⟨d, hd, hafter⟩ := update_over hstep hcreates hwritten
  have hfield : ∀ k : Controllo.Campo, overwrite d c.toJson k.key = some (.str (c.text k)) :=
    fun k => overwrite_of_lookup (c.toJson_campo k)
  refine ⟨d, overwrite d c.toJson, hd, ?_, ?_, ?_, ?_, ?_, ?_, ?_, ?_⟩
  · rw [hafter]
    exact AList.lookup_insert _
  · intro q hq
    rw [hafter]
    exact AList.lookup_insert_ne hq
  · intro k hk
    exact overwrite_of_lookup_none (Controllo.toJson_lookup_eq_none hk)
  · rw [Controllo.overwrite_codice, hcod]
  · have hpath : overwrite d c.toJson "scheda" = some (.str c.scheda) := rfl
    rw [hpath, hscheda]
  · intro k hk
    obtain ⟨x, hx, hstored⟩ := hentered k hk
    exact ⟨x, c.text k, hx, hstored, hfield k⟩
  · intro k hk
    rw [hfield k, hkept k hk]
  · refine forall₂_congr fun k hk => ?_
    rw [hfield k, hkept k hk, eq_comm]

/-- A machine is registered and read twice, and the first reading is edited. -/
def addReadReadEdit : List Action :=
  [.add "M1" [.descrizione "Pulizia", .dataUltimo (.type "15/01/2022"),
      .dataProssimo (.type "15/01/2023"), .file ⟨"/foto/scheda.pdf"⟩] .success .success,
    .read ["M1"] Hour.zero, .read ["M1"] Hour.zero,
    .edit 1 [.descrizione "Revisione"] .success .success]

/-- The check of the second reading. -/
def checkStale : Action :=
  .check 0 [.dataControllo (.type "16/01/2023"), .dataProssimo (.type "16/01/2024")]
    .success .success

/-- The run up to the edit. -/
def beforeCheck : List (State × Action) × State :=
  (exec (step (Zone.fixed 0 Zone.zero_lt_day)) [] State.start addReadReadEdit).get
    (by decide +kernel)

/-- The state after the check. -/
def afterCheck : State :=
  (step (Zone.fixed 0 Zone.zero_lt_day) beforeCheck.2 checkStale).get (by decide +kernel)

/-- The stale reading. -/
def staleReading : Reading := (beforeCheck.2.readings[0]?).get (by decide +kernel)

/-- The record that the check stores. -/
def staleRecord : Controllo := ((written beforeCheck.2 checkStale).get (by decide +kernel)).2

/-- The check of a stale reading stores the dates that it entered, the description of its
reading and the path of the sheet that was read. -/
theorem confirm_changes_M1 : ∃ d' : Doc,
    afterCheck.backend.controlli.lookup ["M1"] = some d' ∧
      d' "scheda" = some (.str staleReading.controllo.scheda) ∧
      d' "dataUltimo" = some (.str "2023-01-16") ∧
      d' "dataProssimo" = some (.str "2024-01-16") ∧
      d' "descrizione" = some (.str (staleReading.controllo.text .descrizione)) := by
  have hwritten : written beforeCheck.2 checkStale = some (["M1"], staleRecord) := by
    decide +kernel
  obtain ⟨_, d, d', _, hd', _, _, _, hscheda, hchanged, hkept, _⟩ :=
    confirm_changes (t := afterCheck) (a := checkStale) (i := 0) (r := staleReading)
      (run_get _) (Option.some_get _).symm rfl
      (Option.some_get _).symm hwritten (by decide +kernel)
  have hultimo : Controllo.Campo.stored .dataUltimo "16/01/2023" = some "2023-01-16" := by
    decide +kernel
  have hprossimo : Controllo.Campo.stored .dataProssimo "16/01/2024" = some "2024-01-16" := by
    decide +kernel
  obtain ⟨x, v, hx, hv, hd'Ultimo⟩ := hchanged .dataUltimo rfl
  cases hx
  cases hultimo.symm.trans hv
  obtain ⟨y, w, hy, hw, hd'Prossimo⟩ := hchanged .dataProssimo rfl
  cases hy
  cases hprossimo.symm.trans hw
  exact ⟨d', hd', hscheda, hd'Ultimo, hd'Prossimo, hkept .descrizione rfl⟩

/-- The check enters two dates only, and takes back the description of the edit. -/
theorem update_lost_M1 :
    (getControllo "M1" beforeCheck.2.backend).map Controllo.descrizione = some "Revisione" ∧
      checkStale.changes .descrizione = false ∧
      (getControllo "M1" afterCheck.backend).map Controllo.descrizione = some "Pulizia" := by
  decide +kernel

end Confirms

end EthosApp
