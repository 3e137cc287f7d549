import EthosApp.Store.Decodable
import EthosApp.Store.Replay

/-!
# What the readers return

The readers of `database_command.dart` return what the represented registry says. After a
plain run this is the replay of the events of the run, so that the answers about one
machine depend on the events of its code only.
-/

namespace EthosApp

open Dart Gregorian Firestore DocStore Runs Confirms

/-- The record of the machine at a path. -/
def Registry.record (A : Registry) : Path → Option Controllo
  | [code] => (A code).machine.map (Machine.record code)
  | _ => none

/-- The record of the machine that a text addresses. -/
def Registry.find (A : Registry) (codice : String) : Option Controllo :=
  (docPath codice).bind A.record

/-- The sheet at the segments of a code. -/
def Registry.sheet (A : Registry) : Path → Option File
  | [] => (A "").sheet
  | [code] => (A code).sheet
  | _ => none

/-- What the readers return of a registry. -/
structure ReadsAs (zone : Zone) (A : Registry) (b : Backend) : Prop where
  /-- A machine is read by every text that addresses it. -/
  getControllo : ∀ codice, getControllo codice b = A.find codice
  /-- A machine is present if there is one to read. -/
  isControlloPresente : ∀ codice, isControlloPresente .success codice b = (A.find codice).isSome
  /-- All machines are listed, each of them once. -/
  getAllControls : ∃ ms, getAllControls b = some ms ∧ (ms.map Controllo.cod).Nodup ∧
    ∀ c, c ∈ ms ↔ ∃ code m, (A code).machine = some m ∧ c = m.record code
  /-- The agenda of a day lists the machines whose next check falls on it. -/
  getControlliPerData : ∀ (g : DateTime) (h : Hour), 0 ≤ g.date.year ∧ g.date.year ≤ 9999 →
    ∃ ms, getControlliPerData g h.text b = some ms ∧ (ms.map Controllo.cod).Nodup ∧
      ∀ c, c ∈ ms ↔ ∃ code m, (A code).machine = some m ∧ m.prossimo = g.date ∧
        c = (m.record code).atHour h
  /-- The checks of a range of days are listed, each of them once. -/
  getRevisioniPerData : ∀ start finish : CivilDate, start ≤ finish →
    ∃ rs, getRevisioniPerData zone (.midnight start) (.midnight finish) b = some rs ∧ rs.Nodup ∧
      ∀ r, r ∈ rs ↔ ∃ code day k, (A code).checks day = some k ∧ start ≤ day ∧ day ≤ finish ∧
        r = k.entry code day
  /-- The sheet of a code is stored at its path, whatever text names the code. -/
  storage : ∀ codice, b.storage (child ("schede/" ++ codice)) = A.sheet (segments codice)

variable {zone : Zone} {A : Registry} {b : Backend}

/-- The document of a machine is that of its record, as every reader decodes it. -/
theorem Machine.holds {code : String} {m : Machine} (hyears : (m.record code).FourDigitYears) :
    Agenda.Holds (ofMap (m.record code).toJson) (m.record code) := by
  refine ⟨hyears, ?_, rfl, rfl⟩
  intro h
  rw [ofMap_eq_overwrite, Controllo.fromSnapshot_overwrite _ h hyears]
  rfl

/-- A stored document is that of a registered machine. -/
theorem Represents.lookup_iff (hb : Represents zone A b) {p : Path} {d : Doc} :
    b.controlli.lookup p = some d ↔ ∃ code m, p = [code] ∧ (A code).machine = some m ∧
      d = ofMap (m.record code).toJson := by
  rw [hb.machines]
  constructor
  · intro hdoc
    unfold Registry.document at hdoc
    split at hdoc
    · obtain ⟨m, hm, rfl⟩ := Option.map_eq_some_iff.mp hdoc
      exact ⟨_, m, rfl, hm, rfl⟩
    · cases hdoc
  · rintro ⟨code, m, rfl, hm, rfl⟩
    simp [Registry.document, hm]

/-- All stored documents are those of machines. -/
theorem Represents.allHold (hb : Represents zone A b) : Agenda.AllHold b := by
  intro p d hdoc
  obtain ⟨code, m, rfl, hm, rfl⟩ := hb.lookup_iff.mp hdoc
  obtain ⟨hpath, hyears⟩ := hb.plain code m hm
  exact ⟨m.record code, Machine.holds hyears, hpath⟩

/-- The document at a path decodes to the record at the path. -/
theorem Represents.decode (hb : Represents zone A b) (p : Path) :
    (A.document p).bind (fun d => Controllo.fromSnapshot d) = A.record p ∧
      (A.document p).isSome = (A.record p).isSome := by
  rcases p with _ | ⟨code, _ | ⟨code', p⟩⟩
  · exact ⟨rfl, rfl⟩
  · cases hm : (A code).machine with
    | none => simp [Registry.document, Registry.record, hm]
    | some m =>
      have hrecord := (Machine.holds (hb.plain code m hm).2).fromSnapshot_default
      simp only [Registry.document, Registry.record, hm, Option.map_some, Option.bind_some]
      exact ⟨hrecord, rfl⟩
  · exact ⟨rfl, rfl⟩

/-- A machine is read by every text that addresses it. -/
theorem Represents.getControllo (hb : Represents zone A b) (codice : String) :
    getControllo codice b = A.find codice := by
  unfold EthosApp.getControllo Registry.find
  cases docPath codice with
  | none => rfl
  | some p =>
    have hdecode := (hb.decode p).1
    rw [← hb.machines] at hdecode
    exact hdecode

/-- A machine is present if there is one to read. -/
theorem Represents.isControlloPresente (hb : Represents zone A b) (codice : String) :
    isControlloPresente .success codice b = (A.find codice).isSome := by
  unfold EthosApp.isControlloPresente Registry.find
  cases docPath codice with
  | none => rfl
  | some p =>
    have hpresent := (hb.decode p).2
    rw [← hb.machines] at hpresent
    exact hpresent

/-- All machines are listed, each of them once. -/
theorem Represents.getAllControls (hb : Represents zone A b) :
    ∃ ms, getAllControls b = some ms ∧ (ms.map Controllo.cod).Nodup ∧
      ∀ c, c ∈ ms ↔ ∃ code m, (A code).machine = some m ∧ c = m.record code := by
  have hdecode : ∀ code m, (A code).machine = some m →
      Controllo.fromSnapshot (ofMap (m.record code).toJson) = some (m.record code) :=
    fun code m hm => (Machine.holds (hb.plain code m hm).2).fromSnapshot_default
  obtain ⟨ms, hms, hnodup, hlisted⟩ := exists_getAllControls (b := b) (by
    intro p d hdoc
    obtain ⟨code, m, rfl, hm, rfl⟩ := hb.lookup_iff.mp hdoc
    exact ⟨m.record code, hdecode code m hm, (hb.plain code m hm).1⟩)
  refine ⟨ms, hms, List.Nodup.of_map docPath (by rwa [List.map_map]), ?_⟩
  intro c
  rw [hlisted]
  constructor
  · rintro ⟨p, d, _, hdoc, hc⟩
    obtain ⟨code, m, rfl, hm, rfl⟩ := hb.lookup_iff.mp hdoc
    rw [hdecode code m hm, Option.some.injEq] at hc
    exact ⟨code, m, hm, hc.symm⟩
  · rintro ⟨code, m, hm, rfl⟩
    exact ⟨[code], _, rfl, hb.lookup_iff.mpr ⟨code, m, rfl, hm, rfl⟩, hdecode code m hm⟩

/-- The agenda of a day lists the machines whose next check falls on it. -/
theorem Represents.getControlliPerData (hb : Represents zone A b) (g : DateTime) (h : Hour)
    (hg : 0 ≤ g.date.year ∧ g.date.year ≤ 9999) :
    ∃ ms, getControlliPerData g h.text b = some ms ∧ (ms.map Controllo.cod).Nodup ∧
      ∀ c, c ∈ ms ↔ ∃ code m, (A code).machine = some m ∧ m.prossimo = g.date ∧
        c = (m.record code).atHour h := by
  obtain ⟨ms, hms, hnodup, hlisted⟩ := hb.getAllControls
  refine ⟨_, Agenda.getControlliPerData_eq hb.allHold hms h hg, ?_, ?_⟩
  · rw [List.map_map]
    exact (List.filter_sublist.map Controllo.cod).nodup hnodup
  · intro c
    simp only [List.mem_map, List.mem_filter, decide_eq_true_eq, hlisted]
    constructor
    · rintro ⟨_, ⟨⟨code, m, hm, rfl⟩, hday⟩, rfl⟩
      exact ⟨code, m, hm, hday, rfl⟩
    · rintro ⟨code, m, hm, hday, rfl⟩
      exact ⟨_, ⟨⟨code, m, hm, rfl⟩, hday⟩, rfl⟩

/-- All checks are decoded, each of them once. -/
theorem Represents.registro_decodes (hb : Represents zone A b) :
    ∃ rs, (docs b.registroControlli).mapM RegistroControllo.fromSnapshot = some rs ∧ rs.Nodup ∧
      ∀ r, r ∈ rs ↔ ∃ code day k, (A code).checks day = some k ∧ r = k.entry code day := by
  have hentry : ∀ e ∈ b.registroControlli.entries, ∃ code day k,
      (A code).checks day = some k ∧ e = ⟨[registroId zone (k.entry code day)],
        ofMap (k.entry code day).toJson⟩ := by
    rintro ⟨p, d⟩ he
    obtain ⟨code, day, k, hk, rfl, rfl⟩ := (hb.checks p d).mp (AList.mem_lookup_iff.mpr he)
    exact ⟨code, day, k, hk, rfl⟩
  have hdecode : ∀ code day k, (A code).checks day = some k →
      RegistroControllo.fromSnapshot (ofMap (k.entry code day).toJson) =
        some (k.entry code day) :=
    fun code day k hk => (hb.regular code day k hk).fromSnapshot (Check.entry_atMidnight _ _ _)
  obtain ⟨rs, hrs, hkeys, hmem⟩ := mapM_entries RegistroControllo.fromSnapshot
    (fun r => [registroId zone r])
    (b.registroControlli.entries.filter fun e => e.1.length = 1) (by
      intro e he
      obtain ⟨code, day, k, hk, rfl⟩ := hentry e (List.mem_of_mem_filter he)
      exact ⟨_, hdecode code day k hk, rfl⟩)
  refine ⟨rs, hrs, ?_, ?_⟩
  · apply List.Nodup.of_map fun r => [registroId zone r]
    rw [hkeys]
    exact b.registroControlli.nodupKeys.sublist List.filter_sublist
  · intro r
    rw [hmem]
    constructor
    · rintro ⟨e, he, hr⟩
      obtain ⟨code, day, k, hk, rfl⟩ := hentry e (List.mem_of_mem_filter he)
      dsimp only at hr
      rw [hdecode code day k hk, Option.some.injEq] at hr
      exact ⟨code, day, k, hk, hr.symm⟩
    · rintro ⟨code, day, k, hk, rfl⟩
      have hstored := (hb.checks _ _).mpr ⟨code, day, k, hk, rfl, rfl⟩
      exact ⟨⟨_, _⟩, List.mem_filter.mpr ⟨AList.mem_lookup_iff.mp hstored, by simp⟩,
        hdecode code day k hk⟩

/-- The checks of a range of days are listed, each of them once. -/
theorem Represents.getRevisioniPerData (hb : Represents zone A b) (start finish : CivilDate)
    (hrange : start ≤ finish) :
    ∃ rs, getRevisioniPerData zone (.midnight start) (.midnight finish) b = some rs ∧ rs.Nodup ∧
      ∀ r, r ∈ rs ↔ ∃ code day k, (A code).checks day = some k ∧ start ≤ day ∧ day ≤ finish ∧
        r = k.entry code day := by
  obtain ⟨rs, hrs, hnodup, hlisted⟩ := hb.registro_decodes
  refine ⟨_, by rw [EthosApp.getRevisioniPerData, hrs]; rfl, hnodup.filter _, ?_⟩
  intro r
  rw [List.mem_filter, hlisted]
  constructor
  · rintro ⟨⟨code, day, k, hk, rfl⟩, hday⟩
    obtain ⟨hstart, hfinish⟩ := (inRange_iff hrange).mp hday
    exact ⟨code, day, k, hk, hstart, hfinish, rfl⟩
  · rintro ⟨code, day, k, hk, hstart, hfinish, rfl⟩
    exact ⟨⟨code, day, k, hk, rfl⟩, (inRange_iff hrange).mpr ⟨hstart, hfinish⟩⟩

/-- The sheet at the segments of a code that is no path is the one of the code. -/
theorem Registry.sheet_segments (A : Registry) {code : String} (hslash : '/' ∉ code.toList) :
    A.sheet (segments code) = (A code).sheet := by
  rw [segments_of_notMem hslash]
  split
  · rename_i hempty
    rw [hempty]
    rfl
  · rfl

/-- The sheet of a code is stored at its path, whatever text names the code. -/
theorem Represents.storage (hb : Represents zone A b) (codice : String) :
    b.storage (child ("schede/" ++ codice)) = A.sheet (segments codice) := by
  have hplain : ∀ code : String, '/' ∉ code.toList → segments codice = segments code →
      b.storage (child ("schede/" ++ codice)) = A.sheet (segments codice) := by
    intro code hslash hsegments
    rw [hsegments, A.sheet_segments hslash, child_schede_inj.mpr hsegments]
    apply Option.ext
    intro file
    rw [hb.sheets]
    constructor
    · rintro ⟨code', hslash', hchild, hfile⟩
      rwa [(child_schede_inj_of_notMem hslash hslash').mp hchild]
    · intro hfile
      exact ⟨code, hslash, rfl, hfile⟩
  rcases hsegments : segments codice with _ | ⟨code, _ | ⟨code', rest⟩⟩
  · rw [← hsegments]
    exact hplain "" (by decide) hsegments
  · have hmem : code ∈ segments codice := by simp [hsegments]
    obtain ⟨hempty, hslash⟩ := notMem_of_mem_segments hmem
    rw [← hsegments]
    refine hplain code hslash ?_
    rw [hsegments, segments_of_notMem hslash, if_neg hempty]
  · -- an event stores no sheet of a code with several segments
    refine Option.eq_none_iff_forall_ne_some.mpr fun file hfile => ?_
    obtain ⟨code'', hslash, hchild, _⟩ := (hb.sheets _ _).mp hfile
    rw [child_schede_inj, hsegments, segments_of_notMem hslash] at hchild
    split at hchild <;> simp at hchild

/-- A represented registry is what the readers return. -/
theorem Represents.readsAs (hb : Represents zone A b) : ReadsAs zone A b :=
  ⟨hb.getControllo, hb.isControlloPresente, hb.getAllControls, hb.getControlliPerData,
    hb.getRevisioniPerData, hb.storage⟩

namespace Confirms

/-- **The readers return the replay of the events.** After every run of plain steps, by any
number of clients in any order, every reader returns what the replayed registry says. -/
theorem readsAs_replay {hist : List (State × Action)} {t : State}
    (hrun : Run (step zone) State.start hist t) (hplain : Steps (PlainStep zone) hist) :
    ReadsAs zone (Registry.empty.replay (eventLog zone hist)) t.backend :=
  (represents_run hrun hplain).readsAs

/-- Two machines are registered, read and edited by turns. -/
def editBoth : List Action :=
  [.add "M1" (fill "15/01/2022" "15/01/2023") .success .success,
    .add "M2" (fill "15/01/2022" "15/01/2023") .success .success,
    .read ["M1"] Hour.zero, .read ["M2"] Hour.zero,
    .edit 0 [.descrizione "Sostituzione"] .success .success,
    .edit 1 [.descrizione "Revisione"] .success .success]

/-- The run with two machines. -/
def runBoth : Option (List (State × Action) × State) :=
  exec (step (Zone.fixed 3600 Zone.hour_lt_day)) [] State.start editBoth

/-- The actions on two machines are possible one after the other. -/
theorem runBoth_isSome : runBoth.isSome := by decide +kernel

/-- The events on two machines are plain. -/
theorem runBoth_plain :
    Steps (PlainStep (Zone.fixed 3600 Zone.hour_lt_day)) (runBoth.get runBoth_isSome).1 := by
  unfold Steps
  decide +kernel

/-- The readers return the replay of the events on two machines. -/
theorem readsAs_replay_both :
    ReadsAs (Zone.fixed 3600 Zone.hour_lt_day)
      (Registry.empty.replay (eventLog (Zone.fixed 3600 Zone.hour_lt_day)
        (runBoth.get runBoth_isSome).1)) (runBoth.get runBoth_isSome).2.backend :=
  readsAs_replay (run_get runBoth_isSome) runBoth_plain

end Confirms

end EthosApp
