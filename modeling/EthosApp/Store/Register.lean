import EthosApp.Dart.UtcText
import EthosApp.Store.Codec
import EthosApp.Store.Confirms
import Mathlib.Data.List.Find

/-!
# What the register keeps

An entry is stored under its code followed by the UTC text of its date. The date is a
local midnight, so that the identifier depends only on the code and the day, and `set`
replaces what an earlier check of the same machine and day registered.
-/

namespace EthosApp

open Dart Gregorian Digits Firestore DocStore Runs Confirms

namespace RegistroControllo

/-- Two entries of one machine and one day. -/
def SameCheck (r r' : RegistroControllo) : Prop :=
  r.codice = r'.codice ∧ r.dataControllo.date = r'.dataControllo.date

instance (r r' : RegistroControllo) : Decidable (SameCheck r r') :=
  inferInstanceAs (Decidable (_ ∧ _))

/-- An entry whose code is no path, of a day in the years 1 to 9999. -/
structure Regular (r : RegistroControllo) : Prop where
  /-- The code contains no separator. -/
  codice : '/' ∉ r.codice.toList
  /-- The year has at most four digits. -/
  year : 1 ≤ r.dataControllo.date.year ∧ r.dataControllo.date.year ≤ 9999

instance (r : RegistroControllo) : Decidable r.Regular :=
  decidable_of_iff (_ ∧ _) ⟨fun h => ⟨h.1, h.2⟩, fun h => ⟨h.codice, h.year⟩⟩

/-- An entry dated at a local midnight. -/
def AtMidnight (r : RegistroControllo) : Prop :=
  r.dataControllo = DateTime.midnight r.dataControllo.date

/-- An entry dated at a local midnight of the years 1 to 9999. -/
structure Dated (r : RegistroControllo) : Prop where
  /-- The date is a local midnight. -/
  midnight : r.AtMidnight
  /-- The year has at most four digits. -/
  year : 1 ≤ r.dataControllo.date.year ∧ r.dataControllo.date.year ≤ 9999

/-- The date of such an entry in UTC. -/
theorem Dated.wholeUtc {r : RegistroControllo} (hr : r.Dated) (zone : Zone) :
    (r.dataControllo.toUtc zone).WholeUtc := by
  rw [hr.midnight]
  exact DateTime.wholeUtc_midnight zone hr.year

/-- The date of a regular entry in UTC. -/
theorem Regular.wholeUtc {r : RegistroControllo} (hr : r.Regular) (hmidnight : r.AtMidnight)
    (zone : Zone) : (r.dataControllo.toUtc zone).WholeUtc :=
  Dated.wholeUtc ⟨hmidnight, hr.year⟩ zone

/-- The text of a whole second in UTC contains no separator. -/
theorem slash_notMem_wholeUtc {t : DateTime} (ht : t.WholeUtc) :
    '/' ∉ t.toIso8601String.toList := by
  have hpad : ∀ w n, '/' ∉ pad w n := fun w n => notMem_pad rfl
  simp [ht.toList, ymd, hpad]

/-- A regular entry addresses a document of the register itself. -/
theorem Regular.docPath {r : RegistroControllo} (hr : r.Regular) (hmidnight : r.AtMidnight)
    (zone : Zone) : docPath (registroId zone r) = some [registroId zone r] := by
  have hutc := hr.wholeUtc hmidnight zone
  apply docPath_of_notMem
  · intro hempty
    rw [registroId, String.append_eq_empty_iff] at hempty
    exact hutc.text_ne_empty hempty.2
  · simp [registroId, hr.codice, slash_notMem_wholeUtc hutc]

/-- An identifier ends in 24 characters that determine the day, whatever the code is. -/
theorem Dated.registroId_inj {r r' : RegistroControllo} (hr : r.Dated) (hr' : r'.Dated)
    (zone : Zone) : registroId zone r = registroId zone r' ↔ r.SameCheck r' := by
  have hutc := hr.wholeUtc zone
  have hutc' := hr'.wholeUtc zone
  constructor
  · intro h
    rw [← String.toList_inj, registroId, registroId, String.toList_append,
      String.toList_append] at h
    obtain ⟨hcodice, hdata⟩ := List.append_inj' h (by rw [hutc.length, hutc'.length])
    have hsame := hutc.injective hutc' (String.toList_inj.mp hdata)
    rw [hr.midnight, hr'.midnight] at hsame
    have hwall := congrArg DateTime.wall hsame
    simp only [DateTime.toUtc, DateTime.midnight, Bool.false_eq_true, if_false,
      DateTime.wall_ofWall] at hwall
    exact ⟨String.toList_inj.mp hcodice, DateTime.instant_midnight_inj.mp hwall⟩
  · rintro ⟨hcodice, hday⟩
    rw [registroId, registroId, hr.midnight, hr'.midnight, hcodice, hday]

/-- Regular entries share a document exactly if they are of one machine and one day. -/
theorem Regular.registroId_inj {r r' : RegistroControllo} (hr : r.Regular) (hr' : r'.Regular)
    (hmidnight : r.AtMidnight) (hmidnight' : r'.AtMidnight) (zone : Zone) :
    registroId zone r = registroId zone r' ↔ r.SameCheck r' :=
  Dated.registroId_inj ⟨hmidnight, hr.year⟩ ⟨hmidnight', hr'.year⟩ zone

/-- A regular entry is decoded as it was registered. -/
theorem Regular.fromSnapshot {r : RegistroControllo} (hr : r.Regular) (hmidnight : r.AtMidnight) :
    RegistroControllo.fromSnapshot (ofMap r.toJson) = some r := by
  have hyear : 0 ≤ r.dataControllo.date.year ∧ r.dataControllo.date.year ≤ 9999 := by
    have := hr.year
    omega
  have hparse := DateTime.parse_isoDay_midnight hyear
  rw [← hmidnight] at hparse
  rw [fromSnapshot_ofMap, hparse, Option.map_some]

end RegistroControllo

namespace Confirms

/-- A registered entry is dated at a local midnight. -/
theorem registered_midnight {zone : Zone} {s : State} {a : Action} {p : Path}
    {r : RegistroControllo} (hregistered : registered zone s a = some (p, r)) : r.AtMidnight := by
  obtain ⟨_, u, hparsed, haccepted⟩ := registered_spec hregistered
  exact DateTimeField.parsed_midnight haccepted hparsed

/-- The entries registered along a run with their documents, newest first. -/
def registrations (zone : Zone) (hist : List (State × Action)) : List (Path × RegistroControllo) :=
  hist.filterMap fun e => registered zone e.1 e.2

/-- The entries registered along a run, newest first. -/
def log (zone : Zone) (hist : List (State × Action)) : List RegistroControllo :=
  (registrations zone hist).map Prod.snd

/-- The last registration of a machine and day in a log. -/
def Latest (log : List RegistroControllo) (r : RegistroControllo) : Prop :=
  log.find? (fun r' => r'.SameCheck r) = some r

/-- The last registration of a machine and day is a registration. -/
theorem Latest.mem {entries : List RegistroControllo} {r : RegistroControllo}
    (hlatest : Latest entries r) : r ∈ entries :=
  List.mem_of_find?_eq_some hlatest

/-- The register is the replay of the registrations. -/
theorem register_eq_setAll {zone : Zone} {hist : List (State × Action)} {t : State}
    (hrun : Run (step zone) State.start hist t) :
    t.backend.registroControlli =
      setAll Prod.fst (fun e => e.2.toJson) (registrations zone hist) := by
  induction hrun with
  | nil => rfl
  | @snoc hist s t a _ hlast ih =>
    rw [step_registro hlast, ih]
    cases hregistered : registered zone s a with
    | none => simp [registrations, hregistered]
    | some e => simp [registrations, hregistered, setAll]

/-- What is known of every registration of a run of regular entries. -/
theorem registrations_spec {zone : Zone} {hist : List (State × Action)}
    (hregular : ∀ r ∈ log zone hist, r.Regular) {p : Path} {r : RegistroControllo}
    (hmem : (p, r) ∈ registrations zone hist) :
    r.Regular ∧ r.AtMidnight ∧ p = [registroId zone r] := by
  have hr := hregular r (List.mem_map_of_mem hmem)
  obtain ⟨⟨s, a⟩, _, hregistered⟩ := List.mem_filterMap.mp hmem
  have hmidnight := registered_midnight hregistered
  have hpath := (registered_spec hregistered).1
  rw [hr.docPath hmidnight, Option.some.injEq] at hpath
  exact ⟨hr, hmidnight, hpath.symm⟩

/-- The newest set of a document is the last registration of its machine and day. -/
theorem find_registrations_iff {zone : Zone} {hist : List (State × Action)}
    (hregular : ∀ r ∈ log zone hist, r.Regular) {r : RegistroControllo} (hmem : r ∈ log zone hist) :
    (registrations zone hist).find? (fun e => e.1 = [registroId zone r]) =
      some ([registroId zone r], r) ↔ Latest (log zone hist) r := by
  obtain ⟨⟨p, r'⟩, hregistration, rfl⟩ := List.mem_map.mp hmem
  obtain ⟨hr, hmidnight, _⟩ := registrations_spec hregular hregistration
  have hcongr : (registrations zone hist).find? (fun e => e.1 = [registroId zone r']) =
      (registrations zone hist).find? (fun e => e.2.SameCheck r') := by
    apply List.find?_congr
    rintro ⟨q, e⟩ he
    obtain ⟨heregular, hemidnight, rfl⟩ := registrations_spec hregular he
    simp [heregular.registroId_inj hr hemidnight hmidnight]
  rw [hcongr, Latest, log, List.find?_map]
  constructor
  · intro hfind
    simpa using ⟨_, hfind⟩
  · intro hfind
    obtain ⟨⟨q, e⟩, hfound, he⟩ := Option.map_eq_some_iff.mp hfind
    dsimp only at he
    subst he
    obtain ⟨_, _, rfl⟩ := registrations_spec hregular (List.mem_of_find?_eq_some hfound)
    exact hfound

/-- What the register stores at an identifier: its newest registration. -/
theorem lookup_register {zone : Zone} {hist : List (State × Action)} {t : State}
    (hrun : Run (step zone) State.start hist t) (p : Path) :
    t.backend.registroControlli.lookup p =
      ((registrations zone hist).find? fun e => e.1 = p).map fun e => ofMap e.2.toJson := by
  rw [register_eq_setAll hrun, lookup_setAll]

/-- Every document of the register is the newest registration at its own identifier. -/
theorem exists_registration {zone : Zone} {hist : List (State × Action)} {t : State}
    (hrun : Run (step zone) State.start hist t) (hregular : ∀ r ∈ log zone hist, r.Regular) :
    ∀ e ∈ t.backend.registroControlli.entries, ∃ r,
      e = ⟨[registroId zone r], ofMap r.toJson⟩ ∧ r.Regular ∧ r.AtMidnight ∧
        Latest (log zone hist) r := by
  rintro ⟨p, d⟩ he
  have hd := lookup_register hrun p
  rw [AList.mem_lookup_iff.mpr he, eq_comm, Option.map_eq_some_iff] at hd
  obtain ⟨⟨q, r⟩, hfound, rfl⟩ := hd
  have hmem := List.mem_of_find?_eq_some hfound
  obtain ⟨hr, hmidnight, rfl⟩ := registrations_spec hregular hmem
  obtain rfl : [registroId zone r] = p := by simpa using List.find?_some hfound
  exact ⟨r, rfl, hr, hmidnight,
    (find_registrations_iff hregular (List.mem_map_of_mem hmem)).mp hfound⟩

/-- The documents of a run of regular entries decode to the last registrations of every
machine and day, each of them once. -/
theorem register_decodes {zone : Zone} {hist : List (State × Action)} {t : State}
    (hrun : Run (step zone) State.start hist t) (hregular : ∀ r ∈ log zone hist, r.Regular) :
    ∃ rs, (docs t.backend.registroControlli).mapM RegistroControllo.fromSnapshot = some rs ∧
      rs.Nodup ∧ ∀ r, r ∈ rs ↔ Latest (log zone hist) r := by
  have hentry := exists_registration hrun hregular
  obtain ⟨rs, hdecoded, hkeys, hmem⟩ := mapM_entries RegistroControllo.fromSnapshot
    (fun r => [registroId zone r])
    (t.backend.registroControlli.entries.filter fun e => e.1.length = 1) (by
      intro e he
      obtain ⟨r, rfl, hr, hmidnight, _⟩ := hentry e (List.mem_of_mem_filter he)
      exact ⟨r, hr.fromSnapshot hmidnight, rfl⟩)
  refine ⟨rs, hdecoded, ?_, ?_⟩
  · apply List.Nodup.of_map fun r => [registroId zone r]
    rw [hkeys]
    exact t.backend.registroControlli.nodupKeys.sublist List.filter_sublist
  · intro r
    rw [hmem]
    constructor
    · rintro ⟨e, he, hdecode⟩
      obtain ⟨r', rfl, hr', hmidnight, hlatest⟩ := hentry e (List.mem_of_mem_filter he)
      dsimp only at hdecode
      rw [hr'.fromSnapshot hmidnight] at hdecode
      cases hdecode
      exact hlatest
    · intro hlatest
      obtain ⟨⟨p, r'⟩, hregistration, rfl⟩ := List.mem_map.mp hlatest.mem
      obtain ⟨hr, hmidnight, _⟩ := registrations_spec hregular hregistration
      have hstored := lookup_register hrun [registroId zone r']
      rw [(find_registrations_iff hregular hlatest.mem).mpr hlatest] at hstored
      exact ⟨⟨_, _⟩, List.mem_filter.mpr ⟨AList.mem_lookup_iff.mp hstored, by simp⟩,
        hr.fromSnapshot hmidnight⟩

/-- The range test of `getRevisioniPerData` on local midnights compares days. -/
theorem inRange_iff {zone : Zone} {day start finish : CivilDate} (hrange : start ≤ finish) :
    (((DateTime.midnight day).isBefore zone (DateTime.midnight finish) &&
        (DateTime.midnight day).isAfter zone (DateTime.midnight start)) ||
      (DateTime.midnight day).sameMoment zone (DateTime.midnight finish) ||
      (DateTime.midnight day).sameMoment zone (DateTime.midnight start)) = true ↔
      start ≤ day ∧ day ≤ finish := by
  have hlocal : ∀ c, (DateTime.midnight c).isUtc = false := fun _ => rfl
  simp only [DateTime.isBefore, DateTime.isAfter, DateTime.sameMoment, hlocal,
    DateTime.instant_midnight_lt, DateTime.instant_midnight_inj, Bool.or_eq_true,
    Bool.and_eq_true, decide_eq_true_eq, and_true]
  constructor
  · rintro ((⟨hbefore, hafter⟩ | rfl) | rfl)
    · exact ⟨hafter.le, hbefore.le⟩
    · exact ⟨hrange, le_refl _⟩
    · exact ⟨le_refl _, hrange⟩
  · rintro ⟨hstart, hfinish⟩
    rcases hstart.eq_or_lt with heq | hafter
    · exact Or.inr heq.symm
    · rcases hfinish.eq_or_lt with heq | hbefore
      · exact Or.inl (Or.inr heq)
      · exact Or.inl (Or.inl ⟨hbefore, hafter⟩)

/-- **What the register returns.** After any run whose registered codes are no paths and
whose check dates lie in the years 1 to 9999, the checks of a range of days are the last
registrations of every machine and day in the range, each of them once. -/
theorem getRevisioniPerData_latest {zone : Zone} {hist : List (State × Action)} {t : State}
    (hrun : Run (step zone) State.start hist t) (hregular : ∀ r ∈ log zone hist, r.Regular)
    {start finish : CivilDate} (hrange : start ≤ finish) :
    ∃ rs, getRevisioniPerData zone (DateTime.midnight start) (DateTime.midnight finish)
        t.backend = some rs ∧ rs.Nodup ∧
      ∀ r, r ∈ rs ↔ Latest (log zone hist) r ∧
        start ≤ r.dataControllo.date ∧ r.dataControllo.date ≤ finish := by
  obtain ⟨rs, hdecoded, hnodup, hmem⟩ := register_decodes hrun hregular
  refine ⟨_, by rw [getRevisioniPerData, hdecoded]; rfl, hnodup.filter _, ?_⟩
  intro r
  rw [List.mem_filter, hmem]
  refine and_congr_right fun hlatest => ?_
  obtain ⟨⟨p, r'⟩, hregistration, rfl⟩ := List.mem_map.mp hlatest.mem
  obtain ⟨_, hmidnight, _⟩ := registrations_spec hregular hregistration
  dsimp only
  rw [hmidnight]
  exact inRange_iff hrange

/-- A machine is registered with a code, read, and checked twice on given days. -/
def checkTwice (code : String) (first second : String) : List Action :=
  [.add code [.descrizione "Pulizia", .dataUltimo (.type "15/01/2022"),
      .dataProssimo (.type "15/01/2023"), .file ⟨"/foto/scheda.pdf"⟩] .success .success,
    .read (segments code) Hour.zero,
    .check 0 [.segnalazione "Nessuna", .dataControllo (.type first),
      .dataProssimo (.type "15/01/2024")] .success .success,
    .check 0 [.segnalazione "Perdita", .dataControllo (.type second),
      .dataProssimo (.type "15/01/2024")] .success .success]

/-- The first day of 2023. -/
def firstOf2023 : CivilDate := CivilDate.normalize 2023 1 1

/-- The last day of 2023. -/
def lastOf2023 : CivilDate := CivilDate.normalize 2023 12 31

/-- The codes and reports that are registered along a run, and those returned for 2023. -/
def registeredAndReturned (actions : List Action) :
    Option (List (String × String) × Option (List (String × String))) :=
  (exec (step (Zone.fixed 3600 Zone.hour_lt_day)) [] State.start actions).map fun r =>
    ((log (Zone.fixed 3600 Zone.hour_lt_day) r.1).map fun e => (e.codice, e.segnalazioni),
      (getRevisioniPerData (Zone.fixed 3600 Zone.hour_lt_day) (DateTime.midnight firstOf2023)
        (DateTime.midnight lastOf2023) r.2.backend).map fun es =>
          es.map fun e => (e.codice, e.segnalazioni))

/-- The register returns the last checks of a machine checked on two days. -/
theorem getRevisioniPerData_latest_M1 :
    ∃ rs, getRevisioniPerData (Zone.fixed 3600) (DateTime.midnight firstOf2023)
        (DateTime.midnight lastOf2023)
        ((exec (step (Zone.fixed 3600)) [] State.start
          (checkTwice "M1" "16/01/2023" "17/01/2023")).get (by decide +kernel)).2.backend =
          some rs ∧ rs.Nodup ∧
      ∀ r, r ∈ rs ↔ Latest (log (Zone.fixed 3600) ((exec (step (Zone.fixed 3600)) [] State.start
          (checkTwice "M1" "16/01/2023" "17/01/2023")).get (by decide +kernel)).1) r ∧
        firstOf2023 ≤ r.dataControllo.date ∧ r.dataControllo.date ≤ lastOf2023 :=
  getRevisioniPerData_latest (run_get (by decide +kernel)) (by decide +kernel) (by decide +kernel)

/-- The second check of a day replaces the first, a check of a machine whose code is a
path is not returned, and after a check dated `00/00/0000` nothing is. -/
theorem register_loses_M1 :
    registeredAndReturned (checkTwice "M1" "16/01/2023" "16/01/2023") =
        some ([("M1", "Perdita"), ("M1", "Nessuna")], some [("M1", "Perdita")]) ∧
      registeredAndReturned (checkTwice "A/B/C" "16/01/2023" "17/01/2023") =
        some ([("A/B/C", "Perdita"), ("A/B/C", "Nessuna")], some []) ∧
      registeredAndReturned (checkTwice "M1" "16/01/2023" "00/00/0000") =
        some ([("M1", "Perdita"), ("M1", "Nessuna")], none) := by
  decide +kernel

end Confirms

end EthosApp
