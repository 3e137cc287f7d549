import EthosApp.Store.Codec
import EthosApp.Store.Confirms

/-!
# The date of the last check

A check writes its date to the machine and to the register, whatever date the machine
held before. The stored date is therefore that of the check confirmed last, which is the
latest one only as long as no check is dated before the date it replaces.
-/

namespace EthosApp

open Dart Gregorian Firestore DocStore Runs

/-- The date of the last check that a document holds. -/
def storedUltimo (p : Path) (b : Backend) : Option DateTime := do
  let d ← b.controlli.lookup p
  let s ← asString (d "dataUltimo")
  DateTime.parse s

namespace LastCheck

open Confirms (State written registered)

/-- A form of one machine, opened on its current record with the hour of the reader. -/
inductive Form
  | check (h : Hour) (actions : List ControlCheck.Action)
  | edit (h : Hour) (actions : List EditControl.Action) (oPut : Outcome)

/-- The hour that the reader passed. -/
def Form.hour : Form → Hour
  | .check h _ => h
  | .edit h _ _ => h

/-- The confirm of a form on the record read last, with its writes accepted. -/
def Form.confirm : Form → Confirms.Action
  | .check _ actions => .check 0 actions .success .success
  | .edit _ actions oPut => .edit 0 actions .success oPut

/-- An edit leaves both dates untouched. -/
def Form.LeavesDates : Form → Prop
  | .check _ _ => True
  | .edit _ actions _ =>
    ∀ a ∈ actions, a.campo ≠ some .dataUltimo ∧ a.campo ≠ some .dataProssimo

instance : (form : Form) → Decidable form.LeavesDates
  | .check _ _ => isTrue trivial
  | .edit _ actions _ => inferInstanceAs (Decidable (∀ a ∈ actions, _ ∧ _))

/-- Whether every write of a confirm is executed. -/
def executed (zone : Zone) (s : State) : Form → Bool
  | .check h actions => (registered zone s (Form.check h actions).confirm).isSome &&
      (written s (Form.check h actions).confirm).isSome
  | .edit h actions oPut => (written s (Form.edit h actions oPut).confirm).isSome

/-- One form: the current record is read, and the form is confirmed with every write
executed. -/
def step (zone : Zone) (p : Path) (s : State) (form : Form) : Option State := do
  let s' ← Confirms.step zone s (.read p form.hour)
  if executed zone s' form then Confirms.step zone s' form.confirm else none

/-- The entry that a form registers. -/
def registers (zone : Zone) (p : Path) (s : State) (form : Form) : Option RegistroControllo := do
  let s' ← Confirms.step zone s (.read p form.hour)
  let (_, r) ← registered zone s' form.confirm
  return r

/-- The days given for the last check, newest first: by the checks of a run, and by the
registration of the machine. -/
def days (zone : Zone) (p : Path) (first : CivilDate) (hist : List (State × Form)) :
    List CivilDate :=
  (hist.filterMap fun e => registers zone p e.1 e.2).map (fun r => r.dataControllo.date) ++ [first]

/-- The check is not dated before the last check that the machine holds. -/
def NotBackdated (zone : Zone) (p : Path) (s : State) (form : Form) : Prop :=
  ∀ r ∈ registers zone p s form, ∀ u ∈ storedUltimo p s.backend, u.date ≤ r.dataControllo.date

instance (zone : Zone) (p : Path) (s : State) (form : Form) :
    Decidable (NotBackdated zone p s form) :=
  inferInstanceAs (Decidable (∀ _ ∈ registers zone p s form, ∀ _ ∈ storedUltimo p s.backend, _))

/-- The stored date of one state is not after that of another. -/
def NotAfter (p : Path) (later earlier : State) : Prop :=
  ∀ u ∈ storedUltimo p earlier.backend, ∀ v ∈ storedUltimo p later.backend, u.date ≤ v.date

/-- The stored date never moves backwards between two states of a run. -/
def NeverBackwards (p : Path) (hist : List (State × Form)) (t : State) : Prop :=
  (t :: hist.map Prod.fst).Pairwise (NotAfter p)

/-! ## One form -/

/-- The document of the machine holds its code and a day for the last check. -/
def Holds (p : Path) (code : String) (day : CivilDate) (b : Backend) : Prop :=
  ∃ d, b.controlli.lookup p = some d ∧ d "codice" = some (.str code) ∧
    d "dataUltimo" = some (.str (DateTime.midnight day).isoDay)

/-- A document over which a record was written holds the day of the record. -/
theorem holds_of_insert {p : Path} {d : Doc} {c : Controllo} {day : CivilDate} {s t : State}
    (hafter : t.backend.controlli = s.backend.controlli.insert p (overwrite d c.toJson))
    (hday : c.dataUltimoControllo.isoDay = (DateTime.midnight day).isoDay) :
    Holds p c.cod day t.backend := by
  have htext := overwrite_of_lookup (d := d) (Controllo.toJson_campo c .dataUltimo)
  rw [Controllo.text, hday] at htext
  refine ⟨overwrite d c.toJson, ?_, Controllo.overwrite_codice d c, htext⟩
  rw [hafter, AList.lookup_insert]

/-- The day that a machine holds is stored. -/
theorem Holds.storedUltimo {p : Path} {code : String} {day : CivilDate} {b : Backend}
    (hs : Holds p code day b) (hyear : 0 ≤ day.year ∧ day.year ≤ 9999) :
    storedUltimo p b = some (DateTime.midnight day) := by
  obtain ⟨d, hd, _, hultimo⟩ := hs
  simp [EthosApp.storedUltimo, hd, hultimo, asString, DateTime.parse_isoDay_midnight hyear]

/-- A form reads the stored document, and its confirm is a step on the record read. -/
theorem step_eq_some {zone : Zone} {p : Path} {s t : State} {form : Form}
    (h : step zone p s form = some t) :
    ∃ r : Reading, s.backend.controlli.lookup p = some r.data ∧
      Confirms.step zone s (.read p form.hour) = some ⟨s.backend, r :: s.readings⟩ ∧
      executed zone ⟨s.backend, r :: s.readings⟩ form = true ∧
      Confirms.step zone ⟨s.backend, r :: s.readings⟩ form.confirm = some t := by
  simp only [step, Option.bind_eq_bind, Option.bind_eq_some_iff,
    Option.ite_none_right_eq_some] at h
  obtain ⟨s', hread, hexecuted, hconfirm⟩ := h
  cases Confirms.step_spec hread with
  | @read _ _ r hr =>
    obtain ⟨_, _, hdoc⟩ := Reading.ofBackend_eq_some hr
    exact ⟨r, hdoc, hread, hexecuted, hconfirm⟩

/-- The code of a record read from the document of the machine. -/
theorem Holds.cod_of_reading {p : Path} {code : String} {day : CivilDate} {b : Backend}
    {r : Reading} (hs : Holds p code day b) (hdoc : b.controlli.lookup p = some r.data) :
    r.controllo.cod = code ∧
      DateTime.parse ((DateTime.midnight day).isoDay ++ " " ++ r.hour.text) =
        some r.controllo.dataUltimoControllo := by
  obtain ⟨d, hd, hcodice, hultimo⟩ := hs
  rw [hdoc, Option.some.injEq] at hd
  subst hd
  obtain ⟨hcod, _, _, _, ⟨s, hs, hparse⟩, _⟩ := Controllo.fromSnapshot_spec r.decodes
  rw [hcodice] at hcod
  rw [hultimo] at hs
  have htext : (DateTime.midnight day).isoDay = s := Option.some.inj hs
  rw [htext]
  exact ⟨(Option.some.inj hcod).symm, hparse⟩

/-- The entry and the record of a check have one date and the code of the reading. -/
theorem check_records {zone : Zone} {s : State} {r : Reading} {i : ℕ}
    {actions : List ControlCheck.Action} {oRegistro oUpdate : Outcome} {p q : Path}
    {e : RegistroControllo} {c : Controllo} (hr : s.readings[i]? = some r)
    (hregistered : registered zone s (.check i actions oRegistro oUpdate) = some (q, e))
    (hwritten : written s (.check i actions oRegistro oUpdate) = some (p, c)) :
    e.codice = r.controllo.cod ∧ c.cod = r.controllo.cod ∧ docPath r.controllo.cod = some p ∧
      c.dataUltimoControllo = e.dataControllo := by
  obtain ⟨r₁, f, hr₁, hf, hregisters⟩ := Confirms.registered_check.mp hregistered
  obtain ⟨r₂, f', hr₂, hf', hwrites, _⟩ := Confirms.written_check.mp hwritten
  rw [hr, Option.some.injEq] at hr₁ hr₂
  rw [hf, Option.some.injEq] at hf'
  subst hr₁ hr₂ hf'
  obtain ⟨hdate, he, _⟩ := ControlCheck.registers_eq_some.mp hregisters
  obtain ⟨hultimo, _, hc, _, hpath⟩ := ControlCheck.writes_eq_some.mp hwrites
  rw [hdate, Option.some.injEq] at hultimo
  refine ⟨?_, ?_, hpath, hultimo.symm⟩
  · rw [he]
    rfl
  · rw [hc]
    rfl

/-- A check registers its date under the code of the machine, and stores it. -/
theorem step_check {zone : Zone} {p : Path} {code : String} {day : CivilDate} {s t : State}
    {h : Hour} {actions : List ControlCheck.Action} (hs : Holds p code day s.backend)
    (hpath : docPath code = some p) (hstep : step zone p s (.check h actions) = some t) :
    ∃ r q, registers zone p s (.check h actions) = some r ∧ r.codice = code ∧
      Holds p code r.dataControllo.date t.backend ∧
      t.backend.registroControlli = setDoc q r.toJson s.backend.registroControlli := by
  obtain ⟨w, hdoc, hread, hexecuted, hconfirm⟩ := step_eq_some hstep
  obtain ⟨rfl, _⟩ := hs.cod_of_reading hdoc
  simp only [executed, Bool.and_eq_true, Option.isSome_iff_exists] at hexecuted
  obtain ⟨⟨⟨q, r⟩, hregistered⟩, ⟨p', c⟩, hwritten⟩ := hexecuted
  obtain ⟨hcodice, hcod, hpath', hultimo⟩ :=
    check_records List.getElem?_cons_zero hregistered hwritten
  rw [hpath, Option.some.injEq] at hpath'
  subst hpath'
  have hregistro := Confirms.step_registro hconfirm
  rw [hregistered] at hregistro
  obtain ⟨d, _, hafter⟩ := Confirms.update_over hconfirm rfl hwritten
  refine ⟨r, q, ?_, hcodice, ?_, hregistro⟩
  · rw [registers, hread]
    simp [hregistered]
  · rw [← hcod]
    apply holds_of_insert hafter
    rw [hultimo, DateTime.isoDay_midnight]

/-- An edit that leaves the dates untouched registers nothing and stores the same day. -/
theorem step_edit {zone : Zone} {p : Path} {code : String} {day : CivilDate} {s t : State}
    {h : Hour} {actions : List EditControl.Action} {oPut : Outcome}
    (hs : Holds p code day s.backend) (hyear : 0 ≤ day.year ∧ day.year ≤ 9999)
    (hpath : docPath code = some p) (hleaves : (Form.edit h actions oPut).LeavesDates)
    (hstep : step zone p s (.edit h actions oPut) = some t) :
    registers zone p s (.edit h actions oPut) = none ∧ Holds p code day t.backend ∧
      t.backend.registroControlli = s.backend.registroControlli := by
  obtain ⟨w, hdoc, hread, hexecuted, hconfirm⟩ := step_eq_some hstep
  obtain ⟨rfl, hparse⟩ := hs.cod_of_reading hdoc
  obtain ⟨⟨p', c⟩, hwritten⟩ := Option.isSome_iff_exists.mp hexecuted
  obtain ⟨d, _, hafter⟩ := Confirms.update_over hconfirm rfl hwritten
  obtain ⟨r, f, hr, hf, hwrites, _⟩ := Confirms.written_edit.mp hwritten
  rw [List.getElem?_cons_zero, Option.some.injEq] at hr
  subst hr
  obtain ⟨hform, _, hpath'⟩ := EditControl.writes_eq_some.mp hwrites
  have hcod := (EditControl.controllo_cod hform).trans (EditControl.session_codice hf)
  rw [hcod, hpath, Option.some.injEq] at hpath'
  subst hpath'
  -- the form shows the stored day, and parses it back
  rw [DateTime.parse_isoDay_midnight_hour w.hour hyear, Option.some.injEq] at hparse
  have hdate : ∀ u, w.controllo.date .dataUltimo = some u →
      0 ≤ u.date.year ∧ DateTime.InRange (u.date.toDays * microsPerDay) := by
    intro u hu
    cases hu
    rw [← hparse]
    exact ⟨hyear.1, DateTime.inRange_midnight (c := day) ⟨by omega, hyear.2⟩⟩
  have htext := EditControl.controllo_text hf hform (fun a ha => (hleaves a ha).1) hdate
  refine ⟨?_, ?_, Confirms.step_registro hconfirm⟩
  · rw [registers, hread]
    rfl
  · rw [← hcod]
    apply holds_of_insert hafter
    refine htext.trans ?_
    rw [Controllo.text, ← hparse]
    exact DateTime.isoDay_congr rfl

/-! ## Runs of forms -/

/-- The entries of a machine in the register have some of the given days. -/
def RegisterDays (code : String) (ds : List CivilDate) (b : Backend) : Prop :=
  AllDocs (fun _ d => d "codice" = some (.str code) →
    ∃ day ∈ ds, d "dataControllo" = some (.str (DateTime.midnight day).isoDay)) b.registroControlli

/-- A machine as `Add` leaves it: stored with its first day, and without any entry in the
register. -/
structure NewMachine (p : Path) (code : String) (first : CivilDate) (s : State) : Prop where
  /-- The code addresses the document. -/
  path : docPath code = some p
  /-- The document holds the code and the day. -/
  holds : Holds p code first s.backend
  /-- The register has no entry of the machine. -/
  fresh : RegisterDays code [] s.backend

/-- `Add` creates a new machine, where the register has no entry under its code. -/
theorem newMachine_of_add {zone : Zone} {s t : State} {c : String} {actions : List Add.Action}
    {oSet oPut : Outcome} {p : Path} {m : Controllo}
    (hadd : Confirms.step zone s (.add c actions oSet oPut) = some t)
    (hwritten : written s (.add c actions oSet oPut) = some (p, m))
    (hfresh : RegisterDays m.cod [] s.backend) :
    NewMachine p m.cod m.dataUltimoControllo.date t := by
  refine ⟨(Confirms.written_spec hwritten).1, ?_, ?_⟩
  · rcases Confirms.step_controlli hadd with ⟨hnone, _⟩ | ⟨p', m', d, hsome, _, hafter⟩
    · rw [hwritten] at hnone
      cases hnone
    · rw [hwritten] at hsome
      cases hsome
      exact holds_of_insert hafter (DateTime.isoDay_midnight _).symm
  · have hregistro := Confirms.step_registro hadd
    simp only [registered] at hregistro
    unfold RegisterDays
    rwa [hregistro]

/-- The days of a run with one form more. -/
theorem days_cons (zone : Zone) (p : Path) (first : CivilDate) (s : State) (form : Form)
    (hist : List (State × Form)) :
    days zone p first ((s, form) :: hist) =
      match registers zone p s form with
      | none => days zone p first hist
      | some r => r.dataControllo.date :: days zone p first hist := by
  cases hregisters : registers zone p s form <;> simp [days, hregisters]

/-- The machine holds the newest of the given days, and its entries in the register have
some of them. -/
def Tracks (p : Path) (code : String) (ds : List CivilDate) (b : Backend) : Prop :=
  ∃ day, ds.head? = some day ∧ Holds p code day b ∧ RegisterDays code ds b

section

variable {zone : Zone} {p : Path} {code : String} {first : CivilDate} {start : State}

/-- A new machine holds its first day. -/
theorem NewMachine.tracks (hnew : NewMachine p code first start) :
    Tracks p code [first] start.backend := by
  refine ⟨first, rfl, hnew.holds, ?_⟩
  intro q d hd hcode
  obtain ⟨day, hmem, _⟩ := hnew.fresh q d hd hcode
  cases hmem

/-- A check adds its day, and an edit that leaves the dates untouched adds none. -/
theorem tracks_step {s t : State} {form : Form} {ds : List CivilDate}
    (hs : Tracks p code ds s.backend) (hyears : ∀ day ∈ ds, 0 ≤ day.year ∧ day.year ≤ 9999)
    (hpath : docPath code = some p) (hleaves : form.LeavesDates)
    (hstep : step zone p s form = some t) :
    Tracks p code
      (match registers zone p s form with
        | none => ds
        | some r => r.dataControllo.date :: ds) t.backend := by
  obtain ⟨day, hhead, hholds, hdays⟩ := hs
  cases form with
  | edit h actions oPut =>
    have hyear := hyears day (List.mem_of_head? hhead)
    obtain ⟨hnone, hholds', hregistro⟩ := step_edit hholds hyear hpath hleaves hstep
    rw [hnone]
    refine ⟨day, hhead, hholds', ?_⟩
    unfold RegisterDays
    rwa [hregistro]
  | check h actions =>
    obtain ⟨r, q, hsome, _, hholds', hregistro⟩ := step_check hholds hpath hstep
    rw [hsome]
    refine ⟨_, rfl, hholds', ?_⟩
    have hweaker : RegisterDays code (r.dataControllo.date :: ds) s.backend := by
      intro q d hd hcode
      obtain ⟨day, hmem, htext⟩ := hdays q d hd hcode
      exact ⟨day, List.mem_cons_of_mem _ hmem, htext⟩
    unfold RegisterDays
    rw [hregistro]
    refine (allDocs_insert_iff hweaker).mpr fun _ => ⟨_, List.mem_cons_self, ?_⟩
    rw [DateTime.isoDay_midnight]
    rfl

/-- The older days of a run are among its days. -/
theorem mem_days_cons {s : State} {form : Form} {hist : List (State × Form)} {day : CivilDate}
    (hday : day ∈ days zone p first hist) : day ∈ days zone p first ((s, form) :: hist) := by
  rw [days_cons]
  split
  · exact hday
  · exact List.mem_cons_of_mem _ hday

/-- **The stored day.** After a run the machine holds the day of its last check, and its
entries in the register have days of the run. -/
theorem run_tracks {hist : List (State × Form)} {t : State} (hnew : NewMachine p code first start)
    (hrun : Run (step zone p) start hist t)
    (hleaves : Steps (fun _ form => form.LeavesDates) hist)
    (hyears : ∀ day ∈ days zone p first hist, 0 ≤ day.year ∧ day.year ≤ 9999) :
    Tracks p code (days zone p first hist) t.backend := by
  induction hrun with
  | nil => exact hnew.tracks
  | snoc _ hlast ih =>
    obtain ⟨hform, hrest⟩ := steps_cons.mp hleaves
    have hyears' := fun day hday => hyears day (mem_days_cons hday)
    rw [days_cons]
    exact tracks_step (ih hrest hyears') hyears' hnew.path hform hlast

/-- A tracked machine stores the newest of its days. -/
theorem Tracks.storedUltimo {ds : List CivilDate} {b : Backend} (hs : Tracks p code ds b)
    (hyears : ∀ day ∈ ds, 0 ≤ day.year ∧ day.year ≤ 9999) :
    ∃ day, ds.head? = some day ∧ storedUltimo p b = some (DateTime.midnight day) := by
  obtain ⟨day, hhead, hholds, _⟩ := hs
  exact ⟨day, hhead, hholds.storedUltimo (hyears day (List.mem_of_head? hhead))⟩

/-- A tracked machine has no entry in the register that is later than the latest day. -/
theorem Tracks.entry_le {ds : List CivilDate} {b : Backend} {latest : CivilDate}
    (hs : Tracks p code ds b) (hyears : ∀ day ∈ ds, 0 ≤ day.year ∧ day.year ≤ 9999)
    (hlatest : ∀ day ∈ ds, day ≤ latest) {q : Path} {d : Doc} {r : RegistroControllo}
    (hd : b.registroControlli.lookup q = some d)
    (hdecodes : RegistroControllo.fromSnapshot d = some r) (hcode : r.codice = code) :
    r.dataControllo.date ≤ latest := by
  obtain ⟨_, _, _, hdays⟩ := hs
  obtain ⟨hcodice, text, htext, hparse⟩ := RegistroControllo.fromSnapshot_spec hdecodes
  rw [hcode] at hcodice
  obtain ⟨day, hmem, hday⟩ := hdays q d hd hcodice
  rw [htext, Option.some.injEq, Value.str.injEq] at hday
  subst hday
  rw [DateTime.parse_isoDay_midnight (hyears day hmem), Option.some.injEq] at hparse
  rw [← hparse]
  exact hlatest day hmem

/-- A form is not backdated exactly if the stored date does not move backwards. -/
theorem notBackdated_iff {s t : State} {form : Form} {hist : List (State × Form)}
    (hs : Tracks p code (days zone p first hist) s.backend)
    (ht : Tracks p code (days zone p first ((s, form) :: hist)) t.backend)
    (hyears : ∀ day ∈ days zone p first ((s, form) :: hist), 0 ≤ day.year ∧ day.year ≤ 9999) :
    NotBackdated zone p s form ↔ NotAfter p t s := by
  obtain ⟨day, hhead, hstored⟩ := hs.storedUltimo fun day hday => hyears day (mem_days_cons hday)
  obtain ⟨day', hhead', hstored'⟩ := ht.storedUltimo hyears
  have hafter : NotAfter p t s ↔ day ≤ day' := by
    simp [NotAfter, hstored, hstored', DateTime.midnight]
  rw [hafter]
  rw [days_cons] at hhead'
  cases hregisters : registers zone p s form with
  | none =>
    rw [hregisters] at hhead'
    obtain rfl : day = day' := Option.some.inj (hhead.symm.trans hhead')
    simp [NotBackdated, hregisters]
  | some r =>
    rw [hregisters] at hhead'
    obtain rfl : r.dataControllo.date = day' := Option.some.inj hhead'
    simp [NotBackdated, hregisters, hstored, DateTime.midnight]

/-- **When the date never moves backwards.** That is so exactly if every check is dated no
earlier than the last check that the machine holds when it is confirmed. -/
theorem neverBackwards_iff {hist : List (State × Form)} {t : State}
    (hnew : NewMachine p code first start) (hrun : Run (step zone p) start hist t)
    (hleaves : Steps (fun _ form => form.LeavesDates) hist)
    (hyears : ∀ day ∈ days zone p first hist, 0 ≤ day.year ∧ day.year ≤ 9999) :
    Steps (NotBackdated zone p) hist ↔ NeverBackwards p hist t := by
  induction hrun with
  | nil => simp [Steps, NeverBackwards]
  | @snoc hist s t form hbefore hlast ih =>
    obtain ⟨_, hrest⟩ := steps_cons.mp hleaves
    have hyears' := fun day hday => hyears day (mem_days_cons hday)
    have hs := run_tracks hnew hbefore hrest hyears'
    have ht := run_tracks hnew (hbefore.snoc hlast) hleaves hyears
    rw [steps_cons, ih hrest hyears', notBackdated_iff hs ht hyears]
    unfold NeverBackwards
    rw [List.map_cons, List.pairwise_cons (l := s :: _)]
    refine and_congr_left fun hpairwise => ?_
    constructor
    · intro hlastLe s' hs'
      rcases List.mem_cons.mp hs' with rfl | hs'
      · exact hlastLe
      · -- the date of the state before lies between the two
        have hmiddle := (List.pairwise_cons.mp hpairwise).1 s' hs'
        obtain ⟨day, _, hstored⟩ := hs.storedUltimo hyears'
        intro u hu v hv
        exact (hmiddle u hu _ (Option.mem_def.mpr hstored)).trans
          (hlastLe _ (Option.mem_def.mpr hstored) v hv)
    · intro hall
      exact hall s List.mem_cons_self

/-- Without backdated checks the last day of a run is its latest. -/
theorem days_le_head {hist : List (State × Form)} {t : State}
    (hnew : NewMachine p code first start) (hrun : Run (step zone p) start hist t)
    (hleaves : Steps (fun _ form => form.LeavesDates) hist)
    (hyears : ∀ day ∈ days zone p first hist, 0 ≤ day.year ∧ day.year ≤ 9999)
    (hgood : Steps (NotBackdated zone p) hist) :
    ∀ latest ∈ (days zone p first hist).head?, ∀ day ∈ days zone p first hist, day ≤ latest := by
  induction hrun with
  | nil =>
    intro latest hlatest day hday
    obtain rfl : first = latest := Option.some.inj hlatest
    exact (List.mem_singleton.mp hday).le
  | @snoc hist s t form hbefore hlast ih =>
    obtain ⟨_, hrest⟩ := steps_cons.mp hleaves
    obtain ⟨hform, hgood'⟩ := steps_cons.mp hgood
    have hyears' := fun day hday => hyears day (mem_days_cons hday)
    have hle := ih hrest hyears' hgood'
    rw [days_cons]
    cases hregisters : registers zone p s form with
    | none => exact hle
    | some r =>
      intro latest hlatest day hday
      obtain rfl : r.dataControllo.date = latest := Option.some.inj hlatest
      rcases List.mem_cons.mp hday with rfl | hday
      · exact le_refl _
      · obtain ⟨before, hhead, hstored⟩ :=
          (run_tracks hnew hbefore hrest hyears').storedUltimo hyears'
        have hbeforeLe : before ≤ r.dataControllo.date :=
          hform r (Option.mem_def.mpr hregisters) (DateTime.midnight before)
            (Option.mem_def.mpr hstored)
        exact (hle before hhead day hday).trans hbeforeLe

end

/-- **What the stored date of the last check is.** A machine is created by `Add`, and then
checked and edited, each form starting from the current record. With dates of the years 0
to 9999, the stored date is that of the check confirmed last, or that given to `Add`. It
never moves backwards exactly if no check is dated before the last check that the machine
holds when it is confirmed, and then it is the latest of all dates given, and no entry of
the machine in the register is later. -/
theorem dataUltimo_last {zone : Zone} {s start t : State} {c : String} {actions : List Add.Action}
    {oSet oPut : Outcome} {p : Path} {m : Controllo} {hist : List (State × Form)}
    (hadd : Confirms.step zone s (.add c actions oSet oPut) = some start)
    (hwritten : written s (.add c actions oSet oPut) = some (p, m))
    (hfresh : ∀ q d, s.backend.registroControlli.lookup q = some d →
      d "codice" ≠ some (.str m.cod))
    (hrun : Run (step zone p) start hist t)
    (hleaves : Steps (fun _ form => form.LeavesDates) hist)
    (hyears : ∀ day ∈ days zone p m.dataUltimoControllo.date hist,
      0 ≤ day.year ∧ day.year ≤ 9999) :
    ∃ last, (days zone p m.dataUltimoControllo.date hist).head? = some last ∧
      storedUltimo p t.backend = some (DateTime.midnight last) ∧
      (NeverBackwards p hist t ↔ Steps (NotBackdated zone p) hist) ∧
      (Steps (NotBackdated zone p) hist →
        (∀ day ∈ days zone p m.dataUltimoControllo.date hist, day ≤ last) ∧
        ∀ q d r, t.backend.registroControlli.lookup q = some d →
          RegistroControllo.fromSnapshot d = some r → r.codice = m.cod →
          r.dataControllo.date ≤ last) := by
  have hnew := newMachine_of_add hadd hwritten fun q d hd hcode => absurd hcode (hfresh q d hd)
  have htracks := run_tracks hnew hrun hleaves hyears
  obtain ⟨last, hhead, hstored⟩ := htracks.storedUltimo hyears
  refine ⟨last, hhead, hstored, (neverBackwards_iff hnew hrun hleaves hyears).symm, ?_⟩
  intro hgood
  have hlatest := days_le_head hnew hrun hleaves hyears hgood last hhead
  exact ⟨hlatest, fun q d r => htracks.entry_le hyears hlatest⟩

/-- The registration of a machine whose last check was on 15 January 2022. -/
def addM1 : Confirms.Action :=
  .add "M1" [.descrizione "Pulizia", .dataUltimo (.type "15/01/2022"),
    .dataProssimo (.type "15/01/2023"), .file ⟨"/foto/scheda.pdf"⟩] .success .success

/-- The state after this registration. -/
def afterAddM1 : State :=
  (Confirms.step (Zone.fixed 3600) State.start addM1).get (by decide +kernel)

/-- The record that is registered. -/
def recordM1 : Controllo := ((written State.start addM1).get (by decide +kernel)).2

/-- A check on a given day. -/
def checkOn (day : String) : Form :=
  .check Hour.zero [.dataControllo (.type day), .dataProssimo (.type "15/01/2024")]

/-- Two checks in the order of their dates, with an edit between them. -/
def inOrder : List Form :=
  [checkOn "10/01/2023", .edit Hour.zero [.descrizione "Revisione"] .success, checkOn "16/01/2023"]

/-- Two checks, the later one first. -/
def backdated : List Form := [checkOn "16/01/2023", checkOn "10/01/2023"]

/-- The forms are possible one after the other. -/
theorem inOrder_isSome :
    (exec (step (Zone.fixed 3600) ["M1"]) [] afterAddM1 inOrder).isSome := by decide +kernel

/-- The run of these forms. -/
def inOrderRun : List (State × Form) × State :=
  (exec (step (Zone.fixed 3600) ["M1"]) [] afterAddM1 inOrder).get inOrder_isSome

/-- Checks in the order of their dates leave the latest one stored. -/
theorem dataUltimo_last_M1 :
    ∃ last, storedUltimo ["M1"] inOrderRun.2.backend = some (DateTime.midnight last) ∧
      ∀ day ∈ days (Zone.fixed 3600) ["M1"] recordM1.dataUltimoControllo.date inOrderRun.1,
        day ≤ last := by
  have hfresh : ∀ q d, State.start.backend.registroControlli.lookup q = some d →
      d "codice" ≠ some (.str recordM1.cod) := allDocs_empty _
  have hchecked : Steps (fun _ form => form.LeavesDates) inOrderRun.1 ∧
      (∀ day ∈ days (Zone.fixed 3600) ["M1"] recordM1.dataUltimoControllo.date inOrderRun.1,
        0 ≤ day.year ∧ day.year ≤ 9999) ∧
      Steps (NotBackdated (Zone.fixed 3600) ["M1"]) inOrderRun.1 := by
    unfold Steps
    decide +kernel
  obtain ⟨hleaves, hyears, hgood⟩ := hchecked
  obtain ⟨last, _, hstored, _, hlatest⟩ := dataUltimo_last (s := State.start) (m := recordM1)
    (p := ["M1"]) (t := inOrderRun.2) (Option.some_get _).symm (by decide +kernel) hfresh
    (run_get inOrder_isSome) hleaves hyears
  exact ⟨last, hstored, (hlatest hgood).1⟩

/-- After a backdated check the earlier date is stored, while the register has a later one,
and a check in the year 20230 is read back with another date. -/
theorem backdated_M1 :
    (exec (step (Zone.fixed 3600) ["M1"]) [] afterAddM1 backdated).map (fun r =>
      ((storedUltimo ["M1"] r.2.backend).map DateTime.isoDay,
        ((docs r.2.backend.registroControlli).filterMap RegistroControllo.fromSnapshot).map
          fun e => (e.codice, e.dataControllo.isoDay))) =
      some (some "2023-01-10", [("M1", "2023-01-10"), ("M1", "2023-01-16")]) ∧
    (exec (step (Zone.fixed 3600) ["M1"]) [] afterAddM1 [checkOn "15/01/20230"]).map (fun r =>
      (storedUltimo ["M1"] r.2.backend).map DateTime.isoDay) = some (some "0204-06-01") := by
  decide +kernel

end LastCheck

end EthosApp
