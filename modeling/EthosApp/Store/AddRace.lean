import EthosApp.Lib.Runs
import EthosApp.Screens.AddControl

/-!
# The confirmation dialogs of new machines

The dialog of the Add form reads once whether the machine exists, and offers `Conferma`
if it does not. The set that `Conferma` issues is unconditional and is executed at any
later time, and a dialog stays on the navigation stack and can be confirmed again.
-/

namespace EthosApp

open Dart Firestore DocStore Runs

namespace AddRace

/-- What a dialog shows. -/
inductive Phase
  | attesa
  | presente
  | assente
  deriving DecidableEq

/-- A confirmation dialog over a valid form. -/
structure Dialog where
  /-- The form behind the dialog, which cannot change while the dialog is open. -/
  form : Add
  /-- What the dialog shows. -/
  phase : Phase

/-- The dialogs of all clients, and the sets that were issued but not yet executed, by
the index of their dialog. -/
structure State where
  /-- The remote state. -/
  backend : Backend
  /-- The dialogs, in the order in which they were opened. -/
  dialogs : List Dialog
  /-- The dialogs whose set is under way, once for each press of `Conferma`. -/
  pending : List ℕ

/-- A step of some client, or of the server. -/
inductive Action
  | salva (c : String) (actions : List Add.Action)
  | read (i : ℕ)
  | conferma (i : ℕ)
  | set (i : ℕ) (o : Outcome)
  | update (c : Controllo) (o : Outcome)

/-- The document that a dialog reads and writes. -/
def Dialog.path (d : Dialog) : Option Path := docPath d.form.codice

/-- What a dialog shows after its read. -/
def phaseOf (b : Backend) (p : Path) : Phase :=
  if (b.controlli.lookup p).isSome then .presente else .assente

/-- One step. An update stands for any confirmed edit or check. -/
def step (s : State) : Action → Option State
  | .salva c actions =>
    (Add.session c actions).map fun f => { s with dialogs := s.dialogs ++ [⟨f, .attesa⟩] }
  | .read i => do
    let d ← s.dialogs[i]?
    let p ← d.path
    if d.phase = .attesa then
      return { s with dialogs := s.dialogs.set i { d with phase := phaseOf s.backend p } }
    else none
  | .conferma i => do
    let d ← s.dialogs[i]?
    let _ ← d.form.controllo
    if d.phase = .assente then return { s with pending := i :: s.pending } else none
  | .set i o => do
    let d ← s.dialogs[i]?
    let c ← d.form.controllo
    if i ∈ s.pending then
      return { s with
        backend := (addControlloDB o c s.backend).2
        pending := s.pending.erase i }
    else none
  | .update c o => some { s with backend := (editControlDB o c s.backend).2 }

/-- The state before any dialog is opened. -/
def State.start (b : Backend) : State := ⟨b, [], []⟩

/-- The document that a step replaces or creates by an executed set. -/
def setPath (s : State) : Action → Option Path
  | .set i .success => (s.dialogs[i]?).bind Dialog.path
  | _ => none

/-- Whether a step is the read of a dialog. -/
def Action.reads (i : ℕ) : Action → Bool
  | .read j => j = i
  | _ => false

/-- No set of the document has been executed since the dialog read it. -/
def FreshSince (i : ℕ) (p : Path) : List (State × Action) → Prop
  | [] => True
  | (s, a) :: hist => a.reads i = true ∨ (setPath s a ≠ some p ∧ FreshSince i p hist)

instance decidableFreshSince (i : ℕ) (p : Path) :
    (hist : List (State × Action)) → Decidable (FreshSince i p hist)
  | [] => isTrue trivial
  | (_, _) :: hist =>
    have := decidableFreshSince i p hist
    inferInstanceAs (Decidable (_ ∨ (_ ∧ _)))

/-- Every executed set of a run creates its document. -/
def SetsCreate : List (State × Action) → Prop
  | [] => True
  | (s, a) :: hist =>
    (∀ p ∈ setPath s a, s.backend.controlli.lookup p = none) ∧ SetsCreate hist

/-- If the step is an executed set, no other set of its document has been executed since
the read of its dialog. -/
def SetFresh (s : State) (hist : List (State × Action)) : Action → Prop
  | .set i o => ∀ p ∈ setPath s (.set i o), FreshSince i p hist
  | _ => True

instance (s : State) (hist : List (State × Action)) : (a : Action) → Decidable (SetFresh s hist a)
  | .set i o => inferInstanceAs (Decidable (∀ p ∈ setPath s (.set i o), FreshSince i p hist))
  | .salva _ _ => isTrue trivial
  | .read _ => isTrue trivial
  | .conferma _ => isTrue trivial
  | .update _ _ => isTrue trivial

/-- Every executed set of a run is fresh. -/
def SetsFresh : List (State × Action) → Prop
  | [] => True
  | (s, a) :: hist => SetFresh s hist a ∧ SetsFresh hist

instance decidableSetsFresh : (hist : List (State × Action)) → Decidable (SetsFresh hist)
  | [] => isTrue trivial
  | (_, _) :: hist =>
    have := decidableSetsFresh hist
    inferInstanceAs (Decidable (_ ∧ _))

/-! ## One step -/

/-- What a step does to the state: one case for each action. -/
inductive StepSpec (s : State) : Action → State → Prop
  /-- A dialog is opened over a valid form. -/
  | salva {c : String} {actions : List Add.Action} {f : Add} (hf : Add.session c actions = some f) :
      StepSpec s (.salva c actions) { s with dialogs := s.dialogs ++ [⟨f, .attesa⟩] }
  /-- A dialog that waits reads its document. -/
  | read {i : ℕ} {d : Dialog} {p : Path} (hd : s.dialogs[i]? = some d) (hp : d.path = some p)
      (hphase : d.phase = .attesa) :
      StepSpec s (.read i)
        { s with dialogs := s.dialogs.set i { d with phase := phaseOf s.backend p } }
  /-- A dialog that shows the absence of its document is confirmed. -/
  | conferma {i : ℕ} {d : Dialog} {c : Controllo} (hd : s.dialogs[i]? = some d)
      (hform : d.form.controllo = some c) (hphase : d.phase = .assente) :
      StepSpec s (.conferma i) { s with pending := i :: s.pending }
  /-- A set under way is executed or fails. -/
  | set {i : ℕ} {o : Outcome} {d : Dialog} {c : Controllo} (hd : s.dialogs[i]? = some d)
      (hform : d.form.controllo = some c) (hpending : i ∈ s.pending) :
      StepSpec s (.set i o)
        { s with
          backend := (addControlloDB o c s.backend).2
          pending := s.pending.erase i }
  /-- A machine is updated. -/
  | update {c : Controllo} {o : Outcome} :
      StepSpec s (.update c o) { s with backend := (editControlDB o c s.backend).2 }

/-- Every possible step acts as its action says. -/
theorem step_spec {s t : State} {a : Action} (h : step s a = some t) : StepSpec s a t := by
  cases a with
  | salva c actions =>
    obtain ⟨f, hf, rfl⟩ := Option.map_eq_some_iff.mp h
    exact .salva hf
  | read i =>
    simp only [step, Option.bind_eq_bind, Option.bind_eq_some_iff, Option.pure_def,
      Option.ite_none_right_eq_some, Option.some.injEq] at h
    obtain ⟨d, hd, p, hp, hphase, rfl⟩ := h
    exact .read hd hp hphase
  | conferma i =>
    simp only [step, Option.bind_eq_bind, Option.bind_eq_some_iff, Option.pure_def,
      Option.ite_none_right_eq_some, Option.some.injEq] at h
    obtain ⟨d, hd, c, hform, hphase, rfl⟩ := h
    exact .conferma hd hform hphase
  | set i o =>
    simp only [step, Option.bind_eq_bind, Option.bind_eq_some_iff, Option.pure_def,
      Option.ite_none_right_eq_some, Option.some.injEq] at h
    obtain ⟨d, hd, c, hform, hpending, rfl⟩ := h
    exact .set hd hform hpending
  | update c o =>
    cases h
    exact .update

/-- The dialogs after a step: a new one may be opened, and one may have read. -/
theorem step_dialogs {s t : State} {a : Action} (h : step s a = some t) {i : ℕ} {d : Dialog}
    (hd : t.dialogs[i]? = some d) :
    (a = .read i ∧ ∃ p, d.path = some p ∧ d.phase = phaseOf s.backend p) ∨
      (a.reads i = false ∧ (s.dialogs[i]? = some d ∨ d.phase = .attesa)) := by
  cases step_spec h with
  | salva _ =>
    refine Or.inr ⟨rfl, ?_⟩
    rw [List.getElem?_append] at hd
    split at hd
    · exact Or.inl hd
    · have hnew := List.mem_of_getElem? hd
      rw [List.mem_singleton] at hnew
      exact Or.inr (by rw [hnew])
  | @read j d' p hd' hp _ =>
    by_cases hij : j = i
    · subst hij
      obtain ⟨hlt, _⟩ := List.getElem?_eq_some_iff.mp hd'
      rw [List.getElem?_set_self hlt] at hd
      cases hd
      exact Or.inl ⟨rfl, p, hp, rfl⟩
    · rw [List.getElem?_set_ne hij] at hd
      exact Or.inr ⟨by simpa [Action.reads] using hij, Or.inl hd⟩
  | conferma _ _ _ => exact Or.inr ⟨rfl, Or.inl hd⟩
  | set _ _ _ => exact Or.inr ⟨rfl, Or.inl hd⟩
  | update => exact Or.inr ⟨rfl, Or.inl hd⟩

/-- A step creates a document exactly by an executed set of it, and removes none. -/
theorem step_lookup_eq_none {s t : State} {a : Action} (h : step s a = some t) (p : Path) :
    t.backend.controlli.lookup p = none ↔
      s.backend.controlli.lookup p = none ∧ setPath s a ≠ some p := by
  cases step_spec h with
  | salva _ => simp [setPath]
  | read _ _ _ => simp [setPath]
  | conferma _ _ _ => simp [setPath]
  | update =>
    rw [editControlDB_snd]
    split
    · simp [setPath]
    · simp [setPath, lookup_updateDoc_eq_none]
  | @set i o d c hd hform _ =>
    obtain ⟨_, _, hcod, _⟩ := Add.controllo_eq_some.mp hform
    have hpath : d.path = docPath c.cod := by rw [Dialog.path, hcod]
    cases o with
    | failure => simp [setPath, addControlloDB_snd, writtenPath]
    | success =>
      simp only [setPath, hd, Option.bind_some, hpath, addControlloDB_snd, writtenPath, if_pos]
      cases hq : docPath c.cod with
      | none => simp
      | some q =>
        by_cases hqp : p = q
        · subst hqp
          simp
        · simp [lookup_setDoc_ne _ _ hqp, Ne.symm hqp]

/-! ## Runs -/

/-- The existence of the document of a dialog that shows its absence depends on the sets
executed since its read. The induction is on the run, from its last step back to the
read of the dialog. -/
theorem lookup_eq_none_iff_fresh {b : Backend} {hist : List (State × Action)} {s : State}
    (hrun : Run step (State.start b) hist s) {i : ℕ} {d : Dialog} {p : Path}
    (hd : s.dialogs[i]? = some d) (hassente : d.phase = .assente) (hp : d.path = some p) :
    s.backend.controlli.lookup p = none ↔ FreshSince i p hist := by
  induction hrun generalizing d with
  | nil => simp [State.start] at hd
  | @snoc hist s t a _ hlast ih =>
    rw [step_lookup_eq_none hlast p, FreshSince]
    rcases step_dialogs hlast hd with ⟨rfl, p', hp', hphase⟩ | ⟨hread, hold | hattesa⟩
    · -- the dialog has just seen that the document is absent
      rw [hp] at hp'
      cases hp'
      rw [hassente] at hphase
      unfold phaseOf at hphase
      have habsent : s.backend.controlli.lookup p = none := by
        split at hphase
        · cases hphase
        · rename_i hnone
          simpa using hnone
      simp [habsent, setPath, Action.reads]
    · rw [ih hold hassente hp]
      simp [hread, and_comm]
    · rw [hassente] at hattesa
      cases hattesa

/-- Every set under way belongs to a dialog that shows the absence of its document. -/
theorem pending_assente {b : Backend} {hist : List (State × Action)} {s : State}
    (hrun : Run step (State.start b) hist s) {i : ℕ} (hi : i ∈ s.pending) :
    ∃ d, s.dialogs[i]? = some d ∧ d.phase = .assente := by
  induction hrun generalizing i with
  | nil => simp [State.start] at hi
  | @snoc hist s t a _ hlast ih =>
    cases step_spec hlast with
    | salva _ =>
      obtain ⟨d, hd, hphase⟩ := ih hi
      obtain ⟨hlt, _⟩ := List.getElem?_eq_some_iff.mp hd
      exact ⟨d, by rw [List.getElem?_append_left hlt, hd], hphase⟩
    | @read j d' p hd' hp hattesa =>
      obtain ⟨d, hd, hphase⟩ := ih hi
      have hij : j ≠ i := by
        rintro rfl
        rw [hd'] at hd
        cases hd
        rw [hattesa] at hphase
        cases hphase
      exact ⟨d, by rw [List.getElem?_set_ne hij, hd], hphase⟩
    | conferma hd _ hphase =>
      rcases List.mem_cons.mp hi with rfl | hi
      · exact ⟨_, hd, hphase⟩
      · exact ih hi
    | set _ _ _ => exact ih (List.mem_of_mem_erase hi)
    | update => exact ih hi

/-- An executed set creates its document exactly when it is fresh. -/
theorem set_creates_iff {b : Backend} {hist : List (State × Action)} {s t : State} {i : ℕ}
    {o : Outcome} {p : Path} (hrun : Run step (State.start b) hist s)
    (hstep : step s (.set i o) = some t) (hp : setPath s (.set i o) = some p) :
    s.backend.controlli.lookup p = none ↔ FreshSince i p hist := by
  have hpending : i ∈ s.pending := by
    cases step_spec hstep with
    | set _ _ hpending => exact hpending
  obtain ⟨d, hd, hphase⟩ := pending_assente hrun hpending
  cases o with
  | failure => cases hp
  | success =>
    simp only [setPath, hd, Option.bind_some] at hp
    exact lookup_eq_none_iff_fresh hrun hd hphase hp

/-- **When adding never overwrites.** In every run from any remote state, every executed
set creates its document exactly when every one is executed before any other set of its
document since the read of its dialog. -/
theorem sets_create_iff {b : Backend} {hist : List (State × Action)} {s : State}
    (hrun : Run step (State.start b) hist s) : SetsCreate hist ↔ SetsFresh hist := by
  induction hrun with
  | nil => simp [SetsCreate, SetsFresh]
  | @snoc hist s t a hbefore hlast ih =>
    rw [SetsCreate, SetsFresh, ih]
    refine and_congr_left fun _ => ?_
    cases a with
    | set i o => exact forall₂_congr fun p hp => set_creates_iff hbefore hlast hp
    | _ => simp [SetFresh, setPath]

/-- A filled form for a machine. -/
def fill (descrizione : String) : List Add.Action :=
  [.descrizione descrizione, .dataUltimo (.type "15/01/2022"), .dataProssimo (.type "15/01/2023"),
    .file ⟨"/foto/scheda.pdf"⟩]

/-- Two machines are registered one after the other. -/
def oneByOne : List Action :=
  [.salva "M1" (fill "Pulizia"), .read 0, .conferma 0, .set 0 .success,
    .salva "M2" (fill "Revisione"), .read 1, .conferma 1, .set 1 .success]

/-- Two dialogs for one machine read before either set, and one is confirmed again. -/
def race : List Action :=
  [.salva "M1" (fill "Pulizia"), .salva "M1" (fill "Revisione"), .read 0, .read 1,
    .conferma 0, .set 0 .success, .conferma 1, .set 1 .success, .conferma 0, .set 0 .success]

/-- The sets of two machines registered one after the other create their documents. -/
theorem sets_create_iff_M1 :
    SetsCreate ((exec step [] (State.start Backend.empty) oneByOne).get (by decide +kernel)).1 :=
  (sets_create_iff (run_get (by decide +kernel))).mpr (by decide +kernel)

/-- Of two dialogs that read the same code, the second replaces the machine registered
by the first, and so does the first when it is confirmed again. -/
theorem set_overwrites_M1 :
    [6, 8, 10].map (fun n => (exec step [] (State.start Backend.empty) (race.take n)).bind
      fun r => (getControllo "M1" r.2.backend).map Controllo.descrizione) =
      [some "Pulizia", some "Revisione", some "Pulizia"] := by
  decide +kernel

end AddRace

end EthosApp
