import EthosApp.Lib.HandlerPool
import EthosApp.Store.Arrivals
import EthosApp.Store.Readers

/-!
# Writes in any order

The handlers of confirmed forms run at the same time, those of one client and those of
different clients. Each of them goes on with the answers to its own writes, while the server
accepts or refuses the writes of all of them in any order, and the screens read in between.
The readers then return the replay of the accepted writes in the order of their answers. The
run in which each handler has all its writes answered at once is one of these.
-/

namespace EthosApp

open Dart Firestore DocStore Futures Runs Confirms

namespace Write

/-- An answered write, with the one answer of the server to it. -/
def reply (zone : Zone) (o : Outcome) (w : Write) (b : Backend) : Bool × Backend :=
  w.answer zone ⟨o, o, o, o, false⟩ b

/-- The code of a path of a sheet. -/
def codice (path : String) : String := String.ofList (path.toList.drop 7)

/-- The code under which a sheet is stored. -/
theorem codice_schede (code : String) : codice ("schede/" ++ code) = code := by
  have hfront : "schede/".toList.length = 7 := by decide
  rw [codice, String.toList_append, List.drop_left' hfront, String.ofList_toList]

/-- The event of an answered write, if it is accepted. -/
def events (zone : Zone) (o : Outcome) : Write → List (String × Event)
  | set controllo => recordEvent .put ((writtenPath o controllo.cod).map fun p => (p, controllo))
  | update controllo =>
    recordEvent .change ((writtenPath o controllo.cod).map fun p => (p, controllo))
  | register controllo =>
    entryEvent ((writtenPath o (registroId zone controllo)).map fun p => (p, controllo))
  | put path file => fileEvent (codice path) (if o = .success then some (path, file) else none)

/-- What the handlers of the forms guarantee of a write. -/
def Fit : Write → Prop
  | set controllo => controllo.scheda = "schede/" ++ controllo.cod
  | update controllo => controllo.scheda = "schede/" ++ controllo.cod
  | register controllo => controllo.AtMidnight
  | put path _ => ∃ code, path = "schede/" ++ code

/-- **An answered write stores its event.** -/
theorem reply_snd {zone : Zone} {o : Outcome} {w : Write} {b : Backend} (hfit : w.Fit)
    (hplain : ∀ e ∈ w.events zone o, Event.Plain e) :
    (w.reply zone o b).2 = storeAll zone (w.events zone o) b := by
  have hslash : ∀ e ∈ w.events zone o, '/' ∉ e.1.toList := fun e he => (hplain e he).1
  have hwritten : ∀ (c : Controllo), c.scheda = "schede/" ++ c.cod → ∀ p c',
      ((writtenPath o c.cod).map fun p => (p, c)) = some (p, c') →
        docPath c'.cod = some p ∧ c'.scheda = "schede/" ++ c'.cod := by
    intro c hscheda p c' h
    obtain ⟨q, hq, hpair⟩ := Option.map_eq_some_iff.mp h
    cases hpair
    exact ⟨(writtenPath_eq_some.mp hq).2, hscheda⟩
  cases w with
  | set c =>
    refine Eq.trans ?_ (storeAll_recordEvent setDoc rfl (fun _ _ => rfl) (hwritten c hfit)
      hslash).symm
    refine (addControlloDB_snd o c b).trans ?_
    cases writtenPath o c.cod <;> rfl
  | update c =>
    refine Eq.trans ?_ (storeAll_recordEvent updateDoc rfl (fun _ _ => rfl) (hwritten c hfit)
      hslash).symm
    refine (editControlDB_snd o c b).trans ?_
    cases writtenPath o c.cod <;> rfl
  | register r =>
    refine Eq.trans ?_ (storeAll_entryEvent rfl ?_ hplain).symm
    · refine (registroControllo_snd zone o r b).trans ?_
      cases writtenPath o (registroId zone r) <;> rfl
    · intro p r' h
      obtain ⟨q, hq, hpair⟩ := Option.map_eq_some_iff.mp h
      cases hpair
      exact ⟨(writtenPath_eq_some.mp hq).2, hfit⟩
  | put path file =>
    obtain ⟨code, rfl⟩ := hfit
    refine Eq.trans ?_ (storeAll_fileEvent ?_).symm
    · cases o <;> rfl
    · intro path x h
      obtain ⟨_, hpair⟩ := Option.ite_none_right_eq_some.mp h
      cases hpair
      rw [codice_schede]

/-- A machine is registered under a code that addresses a document. -/
theorem docPath_of_put {zone : Zone} {o : Outcome} {w : Write} {code : String} {m : Machine}
    (hput : (code, .put m) ∈ w.events zone o) : (docPath code).isSome := by
  cases w with
  | set c =>
    obtain ⟨p, c', hwritten, hpair⟩ := mem_recordEvent.mp hput
    obtain ⟨q, hq, hsame⟩ := Option.map_eq_some_iff.mp hwritten
    cases hsame
    cases hpair
    rw [(writtenPath_eq_some.mp hq).2]
    rfl
  | update c => simp [events, mem_recordEvent] at hput
  | register r => simp [events, mem_entryEvent] at hput
  | put path file => simp [events, mem_fileEvent] at hput

end Write

/-- The writes of a handler that writes a record and then may store a sheet. -/
theorem fit_calls_of_record {w : Write} (hw : w.Fit) {codice : String} {file : Option File}
    {next otherwise : Handler Write} (hnext : next.calls = []) (hotherwise : otherwise.calls = []) :
    ∀ w' ∈ (Handler.await w (upload codice next otherwise file)).calls, w'.Fit := by
  intro w' hw'
  rw [Handler.calls, List.mem_cons] at hw'
  rcases hw' with rfl | hw'
  · exact hw
  · cases file with
    | none =>
      rw [upload, hotherwise] at hw'
      cases hw'
    | some x =>
      rw [upload, Handler.calls, hnext, List.mem_singleton] at hw'
      rw [hw']
      exact ⟨codice, rfl⟩

/-- The writes of an `Add` handler. -/
theorem Add.fit_calls (f later : Add) (mounted : Bool) :
    ∀ w ∈ (f.handler later mounted).calls, w.Fit := by
  unfold handler
  cases hform : f.controllo with
  | none => simp [Handler.calls]
  | some c =>
    obtain ⟨_, _, hcod, _, _, _, hscheda⟩ := controllo_eq_some.mp hform
    have hset : (Write.set c).Fit := hscheda.trans (by rw [hcod])
    exact fit_calls_of_record hset (calls_pushNamedHome mounted) rfl

/-- The writes of an `EditControl` handler. -/
theorem EditControl.fit_calls (f later : EditControl) (mounted : Bool) :
    ∀ w ∈ (f.handler later mounted).calls, w.Fit := by
  unfold handler
  cases hform : f.controllo with
  | none => simp [Handler.calls]
  | some c =>
    obtain ⟨_, _, hcod, _, _, _, hscheda⟩ := controllo_eq_some.mp hform
    have hupdate : (Write.update c).Fit := hscheda.trans (by rw [hcod])
    exact fit_calls_of_record hupdate (calls_pushNamedHome mounted) (calls_pushNamedHome mounted)

/-- The writes of a `ControlCheck` handler. -/
theorem ControlCheck.fit_calls {widget : Controllo} {actions : List Action} {f : ControlCheck}
    (hwidget : widget.scheda = "schede/" ++ widget.cod) (hf : session actions = some f)
    (mounted : Bool) : ∀ w ∈ (f.handler widget mounted).calls, w.Fit := by
  unfold handler
  cases hultimo : f.dataControllo.parsed with
  | none => simp [Handler.calls]
  | some u =>
    have hregister : (Write.register (registro widget f u)).Fit :=
      DateTimeField.parsed_midnight (session_accepted hf).1 hultimo
    have hupdate : ∀ v, (Write.update (controllo widget u v)).Fit := fun _ => hwidget
    cases f.dataProssimo.parsed <;>
      simp [Handler.calls, calls_pushNamedHome, hregister, hupdate]

/-! ## The handlers as commands -/

section

variable {zone : Zone} {o : Answers}

end

namespace Deliveries

/-- The remote state with the handlers that use it, and the records read so far. -/
structure State where
  /-- The remote state and the handlers. -/
  pool : Pool Write Backend
  /-- The records held by screens, newest first. -/
  readings : List Reading

/-- The state before any use of the app. -/
def State.start : State := ⟨⟨[], Backend.empty⟩, []⟩

/-- A read of a document, a confirm of a form, or an answer of the server. A confirm comes
with what the user will do to the form until the first write has been answered, and with
whether the dialog will still be open at the end. -/
inductive Action
  | read (p : Path) (h : Hour)
  | add (c : String) (actions meanwhile : List Add.Action) (mounted : Bool)
  | edit (i : ℕ) (actions meanwhile : List EditControl.Action) (mounted : Bool)
  | check (i : ℕ) (actions : List ControlCheck.Action) (mounted : Bool)
  | reply (r : Reply Outcome)

/-- The handler that a confirm issues. -/
def handler (s : State) : Action → Option (Handler Write)
  | .add c actions meanwhile mounted => do
    let f ← Add.session c actions
    let later ← meanwhile.foldlM Add.act f
    return f.handler later mounted
  | .edit i actions meanwhile mounted => do
    let r ← s.readings[i]?
    let f ← EditControl.session r.controllo actions
    let later ← meanwhile.foldlM EditControl.act f
    return f.handler later mounted
  | .check i actions mounted => do
    let r ← s.readings[i]?
    let f ← ControlCheck.session actions
    return f.handler r.controllo mounted
  | _ => none

/-- One step. -/
def step (zone : Zone) (s : State) : Action → Option State
  | .read p h =>
    (Reading.ofBackend s.pool.service p h).map fun r => { s with readings := r :: s.readings }
  | .reply r => (s.pool.reply (Write.reply zone) r).map fun pool => { s with pool }
  | a => (handler s a).map fun h => { s with pool := s.pool.issue h }

/-- The event of a step: that of the write which is answered. -/
def events (zone : Zone) (s : State) : Action → List (String × Event)
  | .reply r => ((s.pool.call r).map fun w => w.events zone r.outcome).getD []
  | _ => []

/-- The events recorded along a run, newest first. -/
def eventLog (zone : Zone) (hist : List (State × Action)) : List (String × Event) :=
  KeyedLog.log (events zone) hist

/-- What a step does to the state: one case for each kind. -/
inductive StepSpec (zone : Zone) (s : State) : Action → State → Prop
  /-- A record that could be read is held. -/
  | read {p : Path} {h : Hour} {r : Reading}
      (hread : Reading.ofBackend s.pool.service p h = some r) :
      StepSpec zone s (.read p h) { s with readings := r :: s.readings }
  /-- A handler is issued. -/
  | issue {a : Action} {h : Handler Write} (hh : handler s a = some h) :
      StepSpec zone s a { s with pool := s.pool.issue h }
  /-- A write is answered. -/
  | reply {r : Reply Outcome} {pool : Pool Write Backend}
      (hreply : s.pool.reply (Write.reply zone) r = some pool) :
      StepSpec zone s (.reply r) { s with pool }

variable {zone : Zone} {A : Registry} {hist : List (State × Action)} {s t : State} {a : Action}

/-- Every possible step is of one kind. -/
theorem step_spec (h : step zone s a = some t) : StepSpec zone s a t := by
  cases a with
  | read p hour =>
    obtain ⟨r, hread, rfl⟩ := Option.map_eq_some_iff.mp h
    exact .read hread
  | reply r =>
    obtain ⟨pool, hreply, rfl⟩ := Option.map_eq_some_iff.mp h
    exact .reply hreply
  | _ =>
    obtain ⟨k, hk, rfl⟩ := Option.map_eq_some_iff.mp h
    exact .issue hk

/-- A confirm is no answer. -/
theorem events_of_handler {h : Handler Write} (hh : handler s a = some h) :
    events zone s a = [] := by
  cases a with
  | reply r => cases hh
  | _ => rfl

/-- The remote state and the records that are held. -/
def State.confirms (s : State) : Confirms.State := ⟨s.pool.service, s.readings⟩

/-- The writes of an issued handler. -/
theorem fit_calls_of_handler (hheld : HeldSheets s.confirms) {h : Handler Write}
    (hh : handler s a = some h) : ∀ w ∈ h.calls, w.Fit := by
  cases a with
  | add c actions meanwhile mounted =>
    simp only [handler, Option.bind_eq_bind, Option.bind_eq_some_iff, Option.pure_def,
      Option.some.injEq] at hh
    obtain ⟨f, _, later, _, rfl⟩ := hh
    exact f.fit_calls later mounted
  | edit i actions meanwhile mounted =>
    simp only [handler, Option.bind_eq_bind, Option.bind_eq_some_iff, Option.pure_def,
      Option.some.injEq] at hh
    obtain ⟨r, _, f, _, later, _, rfl⟩ := hh
    exact f.fit_calls later mounted
  | check i actions mounted =>
    simp only [handler, Option.bind_eq_bind, Option.bind_eq_some_iff, Option.pure_def,
      Option.some.injEq] at hh
    obtain ⟨r, hr, f, hf, rfl⟩ := hh
    exact ControlCheck.fit_calls (hheld r (List.mem_of_getElem? hr)) hf mounted
  | _ => cases hh

/-- The remote state represents a registry, the records held by screens have their sheets
under their codes, and the writes that are under way are those of the forms. -/
structure StateRepresents (zone : Zone) (A : Registry) (s : State) : Prop where
  /-- The remote state represents the registry. -/
  backend : Represents zone A s.pool.service
  /-- The records held by screens have their sheets under their codes. -/
  readings : HeldSheets s.confirms
  /-- The writes are those of the forms. -/
  writes : s.pool.Calls Write.Fit

/-- **One step replays its event.** -/
theorem StateRepresents.step (hs : StateRepresents zone A s)
    (hplain : ∀ e ∈ events zone s a, Event.Plain e) (hstep : Deliveries.step zone s a = some t) :
    StateRepresents zone (A.replay (events zone s a)) t := by
  cases step_spec hstep with
  | @read p h r hread =>
    have hconfirms : Confirms.step zone s.confirms (.read p h) =
        some ⟨s.pool.service, r :: s.readings⟩ := by
      simp [Confirms.step, State.confirms, hread]
    exact ⟨hs.backend, hs.readings.step hs.backend hconfirms, hs.writes⟩
  | issue hh =>
    rw [events_of_handler hh]
    exact ⟨hs.backend, hs.readings, hs.writes.issue (fit_calls_of_handler hs.readings hh)⟩
  | @reply r pool hreply =>
    obtain ⟨w, hw, hservice⟩ := Pool.reply_call hreply
    have hevents : events zone s (.reply r) = w.events zone r.outcome := by
      simp [events, hw]
    rw [hevents] at hplain ⊢
    have hstored := Write.reply_snd (b := s.pool.service) (hs.writes.of_call hw) hplain
    refine ⟨?_, hs.readings, hs.writes.reply hreply⟩
    dsimp only
    rw [hservice, hstored]
    refine hs.backend.storeAll hplain ?_
    intro code m hput
    obtain ⟨p, hp⟩ := Option.isSome_iff_exists.mp (Write.docPath_of_put hput)
    exact docPath_of_plain (hplain _ hput).1 hp

/-- Every run of plain events replays them. -/
theorem represents_of_run (hrun : Run (step zone) State.start hist s)
    (hplain : ∀ e ∈ eventLog zone hist, Event.Plain e) :
    Represents zone (Registry.empty.replay (eventLog zone hist)) s.pool.service := by
  have hstart : StateRepresents zone Registry.empty State.start :=
    ⟨represents_empty zone, by simp [HeldSheets, State.confirms, State.start],
      by simp [Pool.Calls, State.start]⟩
  have hgood : Steps (fun s a => ∀ e ∈ events zone s a, Event.Plain e) hist :=
    fun x hx e he => hplain e (List.mem_flatMap.mpr ⟨x, hx, he⟩)
  exact (KeyedLog.represents_replay hrun hgood hstart
    fun _ _ _ _ hs hgood hstep => hs.step hgood hstep).backend

/-- **Writes in any order.** After every run in which the handlers of any number of clients are
under way at the same time and the server answers their writes in any order, while records are
read in between, the readers return the replay of the accepted writes in the order of their
answers. -/
theorem readsAs_of_deliveries (hrun : Run (step zone) State.start hist s)
    (hplain : ∀ e ∈ eventLog zone hist, Event.Plain e) :
    ReadsAs zone (Registry.empty.replay (eventLog zone hist)) s.pool.service :=
  (represents_of_run hrun hplain).readsAs

/-- Two machines are registered at the same time, and then two edits of the first one are
confirmed at the same time. The answers to the two edits cross. -/
def crossing : List Action :=
  [.add "M1" (fill "15/01/2022" "15/01/2023") [] true,
    .add "M2" (fill "15/01/2022" "15/01/2023") [] true,
    .reply ⟨1, .awaited, .success⟩, .reply ⟨0, .awaited, .success⟩,
    .reply ⟨0, .awaited, .success⟩, .reply ⟨1, .awaited, .success⟩,
    .read ["M1"] Hour.zero, .read ["M1"] Hour.zero,
    .edit 0 [.descrizione "Revisione", .file ⟨"/foto/a.pdf"⟩] [] true,
    .edit 1 [.descrizione "Sostituzione", .file ⟨"/foto/b.pdf"⟩] [] true,
    .reply ⟨2, .awaited, .success⟩, .reply ⟨3, .awaited, .success⟩,
    .reply ⟨3, .awaited, .success⟩, .reply ⟨2, .awaited, .success⟩]

/-- The run in which the answers cross. -/
def runCrossing : Option (List (State × Action) × State) :=
  exec (step (Zone.fixed 3600 Zone.hour_lt_day)) [] State.start crossing

/-- The actions are possible one after the other. -/
theorem runCrossing_isSome : runCrossing.isSome := by decide +kernel

/-- The readers return the replay of the writes whose answers cross. -/
theorem readsAs_of_deliveries_crossing :
    ReadsAs (Zone.fixed 3600 Zone.hour_lt_day)
      (Registry.empty.replay (eventLog (Zone.fixed 3600 Zone.hour_lt_day)
        (runCrossing.get runCrossing_isSome).1))
      (runCrossing.get runCrossing_isSome).2.pool.service :=
  readsAs_of_deliveries (run_get runCrossing_isSome) (by decide +kernel)

-- The machine is left with the description of one edit and the sheet of the other.
example : (runCrossing.map fun r => ((getControllo "M1" r.2.pool.service).map Controllo.descrizione,
      r.2.pool.service.storage (child "schede/M1"))) =
    some (some "Sostituzione", some ⟨"/foto/a.pdf"⟩) := by
  decide +kernel

/-! ## What is known at `home` -/

/-- An answered write removes no object, and an accepted upload stores one. -/
theorem storage_reply {o : Outcome} {w : Write} {b : Backend} {path : String}
    (h : (b.storage (child path)).isSome ∨
      (∃ file, w = .put path file) ∧ (w.reply zone o b).1 = true) :
    ((w.reply zone o b).2.storage (child path)).isSome := by
  cases w with
  | put path' file =>
    cases o with
    | success =>
      by_cases hpath : child path = child path'
      · simp [Write.reply, Write.answer, Write.command, putFile, hpath]
      · have hold : (b.storage (child path)).isSome := by
          refine h.resolve_right ?_
          rintro ⟨⟨file', hput⟩, _⟩
          cases hput
          exact hpath rfl
        simpa [Write.reply, Write.answer, Write.command, putFile, Function.update_of_ne hpath]
          using hold
    | failure => simpa [Write.reply, Write.answer, Write.command, Write.catches, putFile] using h
  | set c =>
    have hold : (b.storage (child path)).isSome := by simpa using h
    have hframe : (addControlloDB o c b).2.storage = b.storage := (addControlloDB_frame o c b).1
    simpa [Write.reply, Write.answer, Write.command, hframe] using hold
  | update c =>
    have hold : (b.storage (child path)).isSome := by simpa using h
    have hframe : (editControlDB o c b).2.storage = b.storage := (editControlDB_frame o c b).1
    simpa [Write.reply, Write.answer, Write.command, hframe] using hold
  | register r =>
    have hold : (b.storage (child path)).isSome := by simpa using h
    have hframe : (registroControllo zone o r b).2.storage = b.storage := by
      rw [registroControllo_snd]
      split <;> rfl
    simpa [Write.reply, Write.answer, Write.command, hframe] using hold

/-- An upload whose sheet is stored. -/
def Stored (b : Backend) (w : Write) : Prop := ∀ path file, w = .put path file →
  (b.storage (child path)).isSome

/-- The uploads of a handler that has not thrown an exception are still to be made, or their
sheets are stored. -/
theorem tracks_of_run (hrun : Run (step zone) State.start hist s) :
    s.pool.Tracks (Stored s.pool.service) := by
  refine (hrun.always (I := fun s : State => s.pool.Tracks (Stored s.pool.service))
    (by simp [Pool.Tracks, State.start]) ?_).1
  intro s a t hs hstep
  cases step_spec hstep with
  | read _ => exact hs
  | issue _ => exact hs.issue _
  | @reply r pool hreply =>
    obtain ⟨w, hw, hservice⟩ := Pool.reply_call hreply
    dsimp only
    refine hs.reply hreply ?_ ?_
    · intro w' hw' path file hput
      rw [hservice]
      exact storage_reply (Or.inl (hw' path file hput))
    · intro w' hcall hnormal path file hput
      obtain rfl : w = w' := Option.some.inj (hw.symm.trans hcall)
      rw [hservice]
      exact storage_reply (Or.inr ⟨⟨file, hput⟩, hnormal⟩)

/-- **A handler that has arrived at `home` has stored its sheet.** Whatever else is under way
and in whatever order the server answers, every path to which a handler uploads a file holds
one from the moment it has returned to the home page. -/
theorem stored_at_home (hrun : Run (step zone) State.start hist s) {p : Process Write}
    (hp : p ∈ s.pool.processes) (hdone : p.handler = .done) {path : String} {file : File}
    (hput : .put path file ∈ p.whole.awaited) : (s.pool.service.storage (child path)).isSome :=
  (tracks_of_run hrun).of_done hp hdone hput path file rfl

/-- The sheet of the first machine is stored. -/
theorem stored_at_home_crossing :
    ((runCrossing.get runCrossing_isSome).2.pool.service.storage (child "schede/M1")).isSome := by
  have hfound : ((runCrossing.get runCrossing_isSome).2.pool.processes.find? fun p =>
      p.handler = .done ∧ .put "schede/M1" ⟨"/foto/b.pdf"⟩ ∈ p.whole.awaited).isSome := by
    decide +kernel
  obtain ⟨p, hp⟩ := Option.isSome_iff_exists.mp hfound
  have hfirst := List.find?_some hp
  rw [decide_eq_true_eq] at hfirst
  obtain ⟨hdone, hput⟩ := hfirst
  exact stored_at_home (run_get runCrossing_isSome) (List.mem_of_find?_eq_some hp) hdone hput

/-! ## One handler after the other -/

/-- The answer to a write of a handler. -/
def outcome (o : Answers) : Write → Outcome
  | .set _ => o.set
  | .update _ => o.update
  | .register _ => o.register
  | .put _ _ => o.put

end Deliveries

end EthosApp
