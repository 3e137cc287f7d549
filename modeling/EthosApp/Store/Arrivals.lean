import EthosApp.Lib.Futures
import EthosApp.Store.Decodable

/-!
# Arriving at `home`

Each `Conferma` handler issues its writes one after another and comes to
`pushNamed('home')` at its end. The server answers in its own order: a handler awaits its
writes to `controlli` and its upload, while the write to the register is started without
being awaited. Refused Firestore writes are caught by the commands, a refused upload is
not, so that only the upload is known to have succeeded at `home`. While a handler awaits
an answer its dialog can be closed and the form changed.
-/

namespace EthosApp

open Dart Firestore DocStore Futures Runs

/-- A write issued by a handler. -/
inductive Write
  | set (controllo : Controllo)
  | update (controllo : Controllo)
  | register (controllo : RegistroControllo)
  | put (path : String) (file : File)
  deriving DecidableEq

/-- The answers of the server to the writes of one handler, which issues at most one of
each kind. -/
structure Answers where
  /-- The answer to `addControlloDB`. -/
  set : Outcome
  /-- The answer to `editControlDB`. -/
  update : Outcome
  /-- The answer to `registroControllo`. -/
  register : Outcome
  /-- The answer to `putFile`. -/
  put : Outcome
  /-- Whether a text that addresses no document is refused like a write, and not before its
  command can catch the exception. -/
  caught : Bool := false

namespace Write

/-- The command of a write. -/
def command (zone : Zone) (o : Answers) : Write → Command
  | set controllo => addControlloDB o.set controllo
  | update controllo => editControlDB o.update controllo
  | register controllo => registroControllo zone o.register controllo
  | put path file => putFile o.put path file

/-- Whether the command of a write ends in `catchError`. -/
def catches : Write → Bool
  | put _ _ => false
  | _ => true

/-- An answered write: whether its future completes normally, and what it has done. -/
def answer (zone : Zone) (o : Answers) (w : Write) (b : Backend) : Bool × Backend :=
  ((w.command zone o b).1 = .normal ∨ o.caught = true ∧ w.catches = true, (w.command zone o b).2)

/-- When an answered write completes normally. -/
theorem answer_fst {zone : Zone} {o : Answers} {w : Write} {b : Backend} :
    (answer zone o w b).1 = true ↔
      (w.command zone o b).1 = .normal ∨ o.caught = true ∧ w.catches = true := decide_eq_true_iff

/-- A write to the register and an update of a machine may be answered in either order. -/
theorem commute_register_update (zone : Zone) (o : Answers) (r : RegistroControllo)
    (c : Controllo) : Commute (answer zone o) (.register r) (.update c) := by
  have hends : ∀ b, (editControlDB o.update c b).1 = .normal ↔ (docPath c.cod).isSome := by
    intro b
    unfold editControlDB
    split <;> simp_all
  intro b
  constructor
  · rw [Bool.eq_iff_iff, answer_fst, answer_fst]
    exact or_congr_left ((hends _).trans (hends _).symm)
  · simp only [answer, command]
    rw [editControlDB_snd, registroControllo_snd, registroControllo_snd, editControlDB_snd]
    cases writtenPath o.register (registroId zone r) <;> cases writtenPath o.update c.cod <;> rfl

end Write

/-- The end of a handler, `Navigator.of(context).pushNamed('home')`. The context is that of
the dialog, which cannot be used any more once the dialog has been closed. -/
def pushNamedHome (mounted : Bool) : Handler Write := if mounted then .done else .thrown

/-- The upload of a handler, with what it does after it, and without a file. -/
def upload (codice : String) (next otherwise : Handler Write) : Option File → Handler Write
  | none => otherwise
  | some file => .await (.put ("schede/" ++ codice) file) next

/-- The writes of the `Conferma` handler of the `Add` form, which is `later` once the set has
been answered. -/
def Add.handler (f later : Add) (mounted : Bool) : Handler Write :=
  match f.controllo with
  | none => .thrown
  | some c => .await (.set c) (upload later.codice (pushNamedHome mounted) .thrown later.file)

/-- The writes of the `Conferma` handler of the `EditControl` form, which is `later` once the
update has been answered. -/
def EditControl.handler (f later : EditControl) (mounted : Bool) : Handler Write :=
  match f.controllo with
  | none => .thrown
  | some c =>
    .await (.update c)
      (upload later.codice (pushNamedHome mounted) (pushNamedHome mounted) later.file)

/-- The writes of the `Conferma` handler of the `ControlCheck` form. -/
def ControlCheck.handler (widget : Controllo) (f : ControlCheck) (mounted : Bool) :
    Handler Write :=
  match f.dataControllo.parsed with
  | none => .thrown
  | some dataControllo =>
    .start (.register (registro widget f dataControllo))
      (match f.dataProssimo.parsed with
      | none => .thrown
      | some dataProssimo =>
        .await (.update (controllo widget dataControllo dataProssimo)) (pushNamedHome mounted))

/-! ## Handlers that come to `home` -/

section

variable {zone : Zone} {o : Answers} {b : Backend}

/-- The end of a handler is reached, or an exception is thrown. -/
theorem run_pushNamedHome (mounted : Bool) (b : Backend) :
    (pushNamedHome mounted).run (Write.answer zone o) b = (mounted, b) := by
  cases mounted <;> rfl

/-- A handler that ends normally has gone on from the write that it awaits first. -/
theorem run_await_normal {w : Write} {next : Handler Write}
    (hnormal : ((Handler.await w next).run (Write.answer zone o) b).1 = true) :
    (Handler.await w next).run (Write.answer zone o) b =
      next.run (Write.answer zone o) (w.command zone o b).2 := by
  rw [Handler.run] at hnormal ⊢
  split at hnormal
  · rename_i hanswer
    rw [if_pos hanswer]
    rfl
  · cases hnormal

/-- A handler that ends normally has stored its file, or had none. -/
theorem run_upload_normal {codice : String} {next otherwise : Handler Write} {file : Option File}
    (hnormal : ((upload codice next otherwise file).run (Write.answer zone o) b).1 = true) :
    (file = none ∧ (upload codice next otherwise file).run (Write.answer zone o) b =
      otherwise.run (Write.answer zone o) b) ∨
    ∃ x, file = some x ∧ o.put = .success ∧
      (upload codice next otherwise file).run (Write.answer zone o) b =
        next.run (Write.answer zone o)
          { b with
            storage := Function.update b.storage (child ("schede/" ++ codice)) (some x) } := by
  cases file with
  | none => exact Or.inl ⟨rfl, rfl⟩
  | some x =>
    right
    have hput : o.put = .success := by
      cases hput : o.put with
      | success => rfl
      | failure =>
        simp [upload, Handler.run, Write.answer, Write.command, Write.catches, putFile,
          hput] at hnormal
    refine ⟨x, rfl, hput, ?_⟩
    rw [upload] at hnormal ⊢
    simp only [run_await_normal hnormal, Write.command, putFile, hput]

/-- What a handler has done that has ended normally without a write left to be answered. -/
theorem service_of_home {h : Handler Write} {s : State Write Backend}
    (hs : Underway (Write.answer zone o) h b s) (hhome : s.handler = .done) :
    (h.run (Write.answer zone o) b).1 = true ∧
      settle (Write.answer zone o) s.pending s.service = (h.run (Write.answer zone o) b).2 := by
  obtain ⟨hdone, hservice⟩ := hs.ended (Or.inl hhome)
  exact ⟨hdone.mp hhome, hservice⟩

end

/-! ## What is known at `home` -/

/-- What is known where the `Add` handler has reached `home`. -/
structure Add.AtHome (o : Answers) (b : Backend) (f later : Add) (s : State Write Backend) :
    Prop where
  /-- No write is left to be answered. -/
  answered : s.pending = []
  /-- Both dates were parsed. -/
  parsed : f.controllo.isSome
  /-- The file of the form is stored under its code, as they were after the set. -/
  uploaded : o.put = .success ∧ ∃ file, later.file = some file ∧
    s.service.storage (child ("schede/" ++ later.codice)) = some file
  /-- The machine is stored if its set was executed. -/
  written : ∀ p c, f.writes o.set = some (p, c) →
    s.service.controlli.lookup p = some (ofMap c.toJson)
  /-- The machines are as before if it was not. -/
  unwritten : f.writes o.set = none → s.service.controlli = b.controlli

/-- What is known where the `EditControl` handler has reached `home`. -/
structure EditControl.AtHome (o : Answers) (b : Backend) (f later : EditControl)
    (s : State Write Backend) : Prop where
  /-- No write is left to be answered. -/
  answered : s.pending = []
  /-- Both dates were parsed. -/
  parsed : f.controllo.isSome
  /-- A file that was chosen is stored. -/
  uploaded : ∀ file, later.file = some file → o.put = .success ∧
    s.service.storage (child ("schede/" ++ later.codice)) = some file
  /-- The machine is updated if it existed and the update was executed. -/
  written : ∀ p c, f.writes o.update = some (p, c) → ∀ d, b.controlli.lookup p = some d →
    s.service.controlli.lookup p = some (overwrite d c.toJson)
  /-- The machines are as before otherwise. -/
  unwritten : (∀ p c, f.writes o.update = some (p, c) → b.controlli.lookup p = none) →
    s.service.controlli = b.controlli

/-- What is known where the `ControlCheck` handler has reached `home`. -/
structure ControlCheck.AtHome (zone : Zone) (o : Answers) (b : Backend) (widget : Controllo)
    (f : ControlCheck) (s : State Write Backend) : Prop where
  /-- At most the write to the register is left to be answered. -/
  answered : s.pending = [] ∨ ∃ r, s.pending = [.register r]
  /-- Both dates were parsed. -/
  parsed : f.dataControllo.parsed.isSome ∧ f.dataProssimo.parsed.isSome
  /-- The machine is updated if it existed and the update was executed. -/
  written : ∀ p c, f.writes o.update widget = some (p, c) → ∀ d, b.controlli.lookup p = some d →
    s.service.controlli.lookup p = some (overwrite d c.toJson)
  /-- The machines are as before otherwise. -/
  unwritten : (∀ p c, f.writes o.update widget = some (p, c) → b.controlli.lookup p = none) →
    s.service.controlli = b.controlli
  /-- The check is in the register once its write has been answered, if it was executed. -/
  registered : s.pending = [] → ∀ p r, f.registers zone o.register widget = some (p, r) →
    s.service.registroControlli.lookup p = some (ofMap r.toJson)

/-- The end of a handler starts no call. -/
theorem started_pushNamedHome (mounted : Bool) : (pushNamedHome mounted).started = [] := by
  cases mounted <;> rfl

/-- An upload starts no call without awaiting it. -/
theorem started_upload {codice : String} {next otherwise : Handler Write} (file : Option File)
    (hnext : next.started = []) (hotherwise : otherwise.started = []) :
    (upload codice next otherwise file).started = [] := by
  cases file with
  | none => exact hotherwise
  | some x => exact hnext

/-- No call of the `Add` handler is started without being awaited. -/
theorem Add.handler_started (f later : Add) (mounted : Bool) :
    (f.handler later mounted).started = [] := by
  unfold handler
  split
  · rfl
  · exact started_upload later.file (started_pushNamedHome mounted) rfl

/-- No call of the `EditControl` handler is started without being awaited. -/
theorem EditControl.handler_started (f later : EditControl) (mounted : Bool) :
    (f.handler later mounted).started = [] := by
  unfold handler
  split
  · rfl
  · exact started_upload later.file (started_pushNamedHome mounted)
      (started_pushNamedHome mounted)

/-- The `ControlCheck` handler starts at most its write to the register. -/
theorem ControlCheck.handler_started (widget : Controllo) (f : ControlCheck) (mounted : Bool) :
    (f.handler widget mounted).started = [] ∨
      ∃ r, (f.handler widget mounted).started = [.register r] := by
  unfold handler
  cases f.dataControllo.parsed with
  | none => exact Or.inl rfl
  | some dataControllo =>
    refine Or.inr ⟨registro widget f dataControllo, ?_⟩
    cases f.dataProssimo.parsed with
    | none => rfl
    | some dataProssimo =>
      exact congrArg (_ :: ·) (started_pushNamedHome mounted)

/-- The end of a handler makes no call. -/
theorem calls_pushNamedHome (mounted : Bool) : (pushNamedHome mounted).calls = [] := by
  cases mounted <;> rfl

/-- The write to the register commutes with the update that follows it. -/
theorem ControlCheck.handler_commutes (zone : Zone) (o : Answers) (widget : Controllo)
    (f : ControlCheck) (mounted : Bool) :
    (f.handler widget mounted).Commutes (Write.answer zone o) := by
  unfold handler
  cases f.dataControllo.parsed with
  | none => trivial
  | some dataControllo =>
    cases f.dataProssimo.parsed with
    | none => exact ⟨by simp [Handler.calls], trivial⟩
    | some dataProssimo =>
      refine ⟨?_, commutes_of_started (started_pushNamedHome mounted)⟩
      intro w hw
      rw [Handler.calls, calls_pushNamedHome, List.mem_singleton] at hw
      rw [hw]
      exact Write.commute_register_update zone o _ _

/-- Machines after an update: the one that was updated, if it existed, and no other. -/
theorem updated_of_match {w : Option (Path × Controllo)} {controlli controlli' : Collection}
    (hupdate : controlli' =
      match w with
      | none => controlli
      | some (p, c) => updateDoc p c.toJson controlli) :
    (∀ p c, w = some (p, c) → ∀ d, controlli.lookup p = some d →
      controlli'.lookup p = some (overwrite d c.toJson)) ∧
    ((∀ p c, w = some (p, c) → controlli.lookup p = none) → controlli' = controlli) := by
  subst hupdate
  rcases w with _ | ⟨p, c⟩
  · exact ⟨fun _ _ h => (nomatch h), fun _ => rfl⟩
  · refine ⟨?_, fun hnone => updateDoc_of_none (hnone p c rfl)⟩
    rintro _ _ ⟨⟩ d hd
    exact lookup_updateDoc hd

/-- What the `Add` handler guarantees at `home`. -/
theorem Add.atHome {zone : Zone} {o : Answers} {b : Backend} {f later : Add} {mounted : Bool}
    {s : State Write Backend} (hs : Underway (Write.answer zone o) (f.handler later mounted) b s)
    (hhome : s.handler = .done) : f.AtHome o b later s := by
  obtain ⟨hnormal, hservice⟩ := service_of_home hs hhome
  have hanswered := hs.pending_eq_nil (f.handler_started later mounted)
  rw [hanswered] at hservice
  cases hform : f.controllo with
  | none => simp [handler, hform, Handler.run] at hnormal
  | some c =>
    have hhandler : f.handler later mounted = .await (.set c)
        (upload later.codice (pushNamedHome mounted) .thrown later.file) := by
      simp [handler, hform]
    rw [hhandler] at hnormal hservice
    have hset := run_await_normal hnormal
    rw [hset] at hnormal hservice
    rcases run_upload_normal hnormal with ⟨_, hthrown⟩ | ⟨file, hfile, hput, hrun⟩
    · rw [hthrown] at hnormal
      cases hnormal
    · rw [hrun, run_pushNamedHome] at hservice
      have hafter : s.service = { (addControlloDB o.set c b).2 with
          storage := Function.update (addControlloDB o.set c b).2.storage
            (child ("schede/" ++ later.codice)) (some file) } := hservice
      have hcontrolli : s.service.controlli =
          match f.writes o.set with
          | none => b.controlli
          | some (p, c) => setDoc p c.toJson b.controlli := by
        rw [hafter, addControlloDB_snd]
        cases hpath : writtenPath o.set c.cod <;> simp [writes, hform, hpath]
      refine ⟨hanswered, by rw [hform]; rfl, ⟨hput, file, hfile, ?_⟩, ?_, ?_⟩
      · rw [hafter]
        exact Function.update_self _ _ _
      · intro p c' hwrites
        rw [hcontrolli, hwrites]
        exact lookup_setDoc _ _ _
      · intro hwrites
        rw [hcontrolli, hwrites]

/-- What the `EditControl` handler guarantees at `home`. -/
theorem EditControl.atHome {zone : Zone} {o : Answers} {b : Backend} {f later : EditControl}
    {mounted : Bool} {s : State Write Backend}
    (hs : Underway (Write.answer zone o) (f.handler later mounted) b s)
    (hhome : s.handler = .done) : f.AtHome o b later s := by
  obtain ⟨hnormal, hservice⟩ := service_of_home hs hhome
  have hanswered := hs.pending_eq_nil (f.handler_started later mounted)
  rw [hanswered] at hservice
  cases hform : f.controllo with
  | none => simp [handler, hform, Handler.run] at hnormal
  | some c =>
    have hhandler : f.handler later mounted = .await (.update c)
        (upload later.codice (pushNamedHome mounted) (pushNamedHome mounted) later.file) := by
      simp [handler, hform]
    rw [hhandler] at hnormal hservice
    have hupdate := run_await_normal hnormal
    rw [hupdate] at hnormal hservice
    -- both ways to the end leave the machines as the update left them
    have hafter : s.service.controlli = (editControlDB o.update c b).2.controlli ∧
        ∀ file, later.file = some file → o.put = .success ∧
          s.service.storage (child ("schede/" ++ later.codice)) = some file := by
      rcases run_upload_normal hnormal with ⟨hfile, hrun⟩ | ⟨file, hfile, hput, hrun⟩
      · rw [hrun, run_pushNamedHome] at hservice
        have hafter : s.service = (editControlDB o.update c b).2 := hservice
        exact ⟨congrArg Backend.controlli hafter, by simp [hfile]⟩
      · rw [hrun, run_pushNamedHome] at hservice
        have hafter : s.service = { (editControlDB o.update c b).2 with
            storage := Function.update (editControlDB o.update c b).2.storage
              (child ("schede/" ++ later.codice)) (some file) } := hservice
        refine ⟨by rw [hafter], ?_⟩
        intro file' hfile'
        obtain rfl : file = file' := Option.some.inj (hfile.symm.trans hfile')
        rw [hafter]
        exact ⟨hput, Function.update_self _ _ _⟩
    obtain ⟨hcontrolli, huploaded⟩ := hafter
    have hmatch : s.service.controlli =
        match f.writes o.update with
        | none => b.controlli
        | some (p, c) => updateDoc p c.toJson b.controlli := by
      rw [hcontrolli, editControlDB_snd]
      cases hpath : writtenPath o.update c.cod <;> simp [writes, hform, hpath]
    obtain ⟨hwritten, hunwritten⟩ := updated_of_match hmatch
    exact ⟨hanswered, by rw [hform]; rfl, huploaded, hwritten, hunwritten⟩

/-- The only write of a check that may be pending is the one to the register. -/
theorem ControlCheck.pending_spec {zone : Zone} {o : Answers} {b : Backend} {widget : Controllo}
    (f : ControlCheck) {mounted : Bool} {s : State Write Backend}
    (hs : Underway (Write.answer zone o) (f.handler widget mounted) b s) :
    s.pending = [] ∨ ∃ r, s.pending = [.register r] := by
  have hsub := (List.sublist_append_left _ _).trans hs.started
  rcases f.handler_started widget mounted with hstarted | ⟨r, hstarted⟩
  · rw [hstarted] at hsub
    exact Or.inl (List.sublist_nil.mp hsub)
  · rw [hstarted] at hsub
    rcases List.sublist_singleton.mp hsub with hnil | hone
    · exact Or.inl hnil
    · exact Or.inr ⟨r, hone⟩

/-- The answer to a pending write to the register leaves the machines alone. -/
theorem controlli_settle {zone : Zone} {o : Answers} {s : State Write Backend}
    (hpending : s.pending = [] ∨ ∃ r, s.pending = [.register r]) :
    (settle (Write.answer zone o) s.pending s.service).controlli = s.service.controlli := by
  rcases hpending with hnil | ⟨r, hone⟩
  · rw [hnil]
    rfl
  · rw [hone]
    simp only [settle, List.foldl_cons, List.foldl_nil, Write.answer, Write.command]
    rw [registroControllo_snd]
    split <;> rfl

/-- What the `ControlCheck` handler guarantees at `home`. -/
theorem ControlCheck.atHome {zone : Zone} {o : Answers} {b : Backend} {widget : Controllo}
    {f : ControlCheck} {mounted : Bool} {s : State Write Backend}
    (hs : Underway (Write.answer zone o) (f.handler widget mounted) b s)
    (hhome : s.handler = .done) : f.AtHome zone o b widget s := by
  obtain ⟨hnormal, hservice⟩ := service_of_home hs hhome
  have hanswered := f.pending_spec hs
  cases hu : f.dataControllo.parsed with
  | none => simp [handler, hu, Handler.run] at hnormal
  | some u =>
    cases hv : f.dataProssimo.parsed with
    | none => simp [handler, hu, hv, Handler.run] at hnormal
    | some v =>
      have hhandler : f.handler widget mounted = .start (.register (registro widget f u))
          (.await (.update (controllo widget u v)) (pushNamedHome mounted)) := by
        simp [handler, hu, hv]
      rw [hhandler, Handler.run] at hnormal hservice
      rw [run_await_normal hnormal, run_pushNamedHome] at hservice
      have hafter : settle (Write.answer zone o) s.pending s.service =
          (editControlDB o.update (controllo widget u v)
            (registroControllo zone o.register (registro widget f u) b).2).2 := hservice
      have hcontrolli : s.service.controlli =
          match f.writes o.update widget with
          | none => b.controlli
          | some (p, c) => updateDoc p c.toJson b.controlli := by
        have hsettled : (settle (Write.answer zone o) s.pending s.service).controlli =
            s.service.controlli := controlli_settle hanswered
        rw [← hsettled, hafter, editControlDB_snd, registroControllo_snd]
        cases writtenPath o.register (registroId zone (registro widget f u)) <;>
          cases hpath : writtenPath o.update widget.cod <;>
          simp [writes, hu, hv, controllo, hpath]
      have hregistro : ∀ p r, f.registers zone o.register widget = some (p, r) →
          (settle (Write.answer zone o) s.pending s.service).registroControlli =
            setDoc p r.toJson b.registroControlli := by
        intro p r hregisters
        rw [hafter, editControlDB_snd, registroControllo_snd]
        cases hpath : writtenPath o.register (registroId zone (registro widget f u)) with
        | none => simp [registers, hu, hpath] at hregisters
        | some q =>
          simp only [registers, hu, hpath, Option.bind_eq_bind, Option.bind_some, Option.pure_def,
            Option.some.injEq, Prod.mk.injEq] at hregisters
          obtain ⟨rfl, rfl⟩ := hregisters
          cases writtenPath o.update (controllo widget u v).cod <;> rfl
      obtain ⟨hwritten, hunwritten⟩ := updated_of_match hcontrolli
      refine ⟨hanswered, by simp [hu, hv], hwritten, hunwritten, ?_⟩
      intro hnil p r hregisters
      have hdoc := congrArg (AList.lookup p) (hregistro p r hregisters)
      rwa [hnil, lookup_setDoc] at hdoc

/-- How a handler goes: it goes on with every awaited answer until it has ended, and at
`home` it guarantees something. -/
def Goes (zone : Zone) (o : Answers) (b : Backend) (h : Handler Write)
    (atHome : State Write Backend → Prop) : Prop :=
  ∀ hist s, Run (step (Write.answer zone o)) (State.start h b) hist s →
    (s.Ended ∨ (step (Write.answer zone o) s .awaited).isSome) ∧ (s.handler = .done → atHome s)

/-- A handler whose started writes commute goes on until it has ended. -/
theorem goes_of_underway {zone : Zone} {o : Answers} {b : Backend} {h : Handler Write}
    {atHome : State Write Backend → Prop} (hcommutes : h.Commutes (Write.answer zone o))
    (hhome : ∀ s, Underway (Write.answer zone o) h b s → s.handler = .done → atHome s) :
    Goes zone o b h atHome := by
  intro hist s hsteps
  have hs := underway hsteps hcommutes
  refine ⟨?_, hhome s hs⟩
  apply hs.ended_or_awaits.imp_right
  rintro ⟨call, next, hawait⟩
  simp [step, hawait]

/-- **Arriving at `home`.** In whatever order the server answers, and whatever it answers
to the Firestore writes, a handler of the three forms that is at `home` has parsed both dates,
its upload has succeeded and is stored, and its machine is written if the write was executed.
The form may have been changed and the dialog closed while the handler awaited an answer. -/
theorem arrivals (zone : Zone) (o : Answers) (b : Backend) (mounted : Bool) :
    (∀ f later : Add, Goes zone o b (f.handler later mounted) (f.AtHome o b later)) ∧
    (∀ f later : EditControl, Goes zone o b (f.handler later mounted) (f.AtHome o b later)) ∧
    ∀ (widget : Controllo) (f : ControlCheck),
      Goes zone o b (f.handler widget mounted) (f.AtHome zone o b widget) := by
  refine ⟨?_, ?_, ?_⟩
  · intro f later
    exact goes_of_underway (commutes_of_started (f.handler_started later mounted))
      fun _ => Add.atHome
  · intro f later
    exact goes_of_underway (commutes_of_started (f.handler_started later mounted))
      fun _ => EditControl.atHome
  · intro widget f
    exact goes_of_underway (f.handler_commutes zone o widget mounted) fun _ => ControlCheck.atHome

/-- A machine whose set is refused is presented as added: the handler arrives at `home`,
the sheet is uploaded, and no document exists. -/
theorem home_without_machine :
    ((Add.session "M1" (Confirms.fill "15/01/2022" "15/01/2023")).bind fun f =>
      (exec (step (Write.answer (Zone.fixed 0) ⟨.failure, .success, .success, .success, false⟩)) []
        (State.start (f.handler f true) Backend.empty) [.awaited, .awaited]).map fun r =>
          (r.2.handler, r.2.service.storage (child "schede/M1"),
            (r.2.service.controlli.lookup ["M1"]).isSome)) =
      some (.done, some ⟨"/foto/scheda.pdf"⟩, false) := by
  decide +kernel

-- A dialog that is closed before the last answer keeps the handler from `home`.
example :
    ((Add.session "M1" (Confirms.fill "15/01/2022" "15/01/2023")).bind fun f =>
      (exec (step (Write.answer (Zone.fixed 0) ⟨.success, .success, .success, .success, false⟩)) []
        (State.start (f.handler f false) Backend.empty) [.awaited, .awaited]).map fun r =>
          (r.2.handler, (r.2.service.controlli.lookup ["M1"]).isSome)) =
      some (.thrown, true) := by
  decide +kernel

end EthosApp
