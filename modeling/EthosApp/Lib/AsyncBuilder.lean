import EthosApp.Lib.Runs

/-!
# Widgets that show the answer to a call

A widget starts a call of a service whenever it is built, and it is built again after every
change of its own data. The calls are executed by the service in any order, and their answers
arrive in any order. A builder listens to the call of the newest build only: the answer to an
older call is dropped, and while the newest call is open the builder waits, although it keeps
the data of an older one. So what a widget shows is the answer to the call of its present
data, given in a state that the service was in since the widget was last built.
-/

namespace AsyncBuilder

open Runs

variable {W B κ ρ ω σ α : Type*}

/-- A widget and the service that it calls. -/
structure System (W B κ ρ ω σ α : Type*) where
  /-- A change of the widget's data, where it is one. -/
  update : W → B → Option W
  /-- The call that a build starts. -/
  call : W → κ
  /-- The answer to a call, which may depend on an outcome. -/
  answer : ω → κ → σ → ρ
  /-- A step of the service. -/
  serve : σ → α → Option σ

/-- A widget with its builder, and the service. -/
structure State (W κ ρ σ : Type*) where
  /-- The widget's data. -/
  widget : W
  /-- How often the widget was built again. -/
  builds : ℕ
  /-- The calls that were not executed yet, with their builds. -/
  pending : List (ℕ × κ)
  /-- The answers under way, with their builds. -/
  answers : List (ℕ × ρ)
  /-- Whether the call of the newest build is open. -/
  waiting : Bool
  /-- The newest answer that the builder did not drop. -/
  data : Option ρ
  /-- The service. -/
  service : σ

/-- What can happen. -/
inductive Action (B ω α : Type*)
  /-- The widget's data is changed, and the widget is built. -/
  | setState (b : B)
  /-- The widget is built, because something above it was. -/
  | rebuild
  /-- The service executes a call. -/
  | execute (i : ℕ) (o : ω)
  /-- An answer arrives. -/
  | deliver (i : ℕ)
  /-- The service makes a step. -/
  | serve (a : α)

/-- Whether the widget is built. -/
def Action.isBuild : Action B ω α → Bool
  | setState _ => true
  | rebuild => true
  | _ => false

variable {sys : System W B κ ρ ω σ α}

/-- The widget is built with new data. -/
def State.build (sys : System W B κ ρ ω σ α) (s : State W κ ρ σ) (w : W) : State W κ ρ σ :=
  { s with
    widget := w
    builds := s.builds + 1
    pending := s.pending ++ [(s.builds + 1, sys.call w)]
    waiting := true }

/-- The widget as it is opened. -/
def start (sys : System W B κ ρ ω σ α) (w : W) (service : σ) : State W κ ρ σ :=
  ⟨w, 0, [(0, sys.call w)], [], true, none, service⟩

/-- One step. -/
def step (sys : System W B κ ρ ω σ α) (s : State W κ ρ σ) :
    Action B ω α → Option (State W κ ρ σ)
  | .setState b => (sys.update s.widget b).map (s.build sys)
  | .rebuild => some (s.build sys s.widget)
  | .execute i o =>
    (s.pending[i]?).map fun p =>
      { s with
        pending := s.pending.eraseIdx i
        answers := s.answers ++ [(p.1, sys.answer o p.2 s.service)] }
  | .deliver i =>
    (s.answers[i]?).map fun p =>
      if p.1 = s.builds then
        { s with answers := s.answers.eraseIdx i, waiting := false, data := some p.2 }
      else { s with answers := s.answers.eraseIdx i }
  | .serve a => (sys.serve s.service a).map fun service => { s with service }

/-- The steps since the widget was last built, newest first. -/
def since (hist : List (State W κ ρ σ × Action B ω α)) : List (State W κ ρ σ × Action B ω α) :=
  hist.takeWhile fun e => !e.2.isBuild

/-- An answer to the call of some data, given since the widget was last built. -/
def Fresh (sys : System W B κ ρ ω σ α) (hist : List (State W κ ρ σ × Action B ω α)) (w : W)
    (r : ρ) : Prop :=
  ∃ e ∈ since hist, ∃ i o, e.2 = .execute i o ∧ r = sys.answer o (sys.call w) e.1.service

/-- A step that does not build the widget is one more since its last build. -/
theorem since_cons {hist : List (State W κ ρ σ × Action B ω α)} {s : State W κ ρ σ}
    {a : Action B ω α} (ha : a.isBuild = false) :
    since ((s, a) :: hist) = (s, a) :: since hist := by
  simp [since, ha]

/-- An answer stays fresh until the widget is built. -/
theorem Fresh.cons {hist : List (State W κ ρ σ × Action B ω α)} {s : State W κ ρ σ}
    {a : Action B ω α} {w : W} {r : ρ} (hr : Fresh sys hist w r) (ha : a.isBuild = false) :
    Fresh sys ((s, a) :: hist) w r := by
  obtain ⟨e, he, hanswer⟩ := hr
  exact ⟨e, by rw [since_cons ha]; exact List.mem_cons_of_mem _ he, hanswer⟩

/-- What holds of the builder: the calls and answers of the newest build are those of the
widget's data, and what is shown is fresh. -/
structure Inv (sys : System W B κ ρ ω σ α) (hist : List (State W κ ρ σ × Action B ω α))
    (s : State W κ ρ σ) : Prop where
  /-- The open call of the newest build is that of the widget. -/
  pending : ∀ p ∈ s.pending, p.1 ≤ s.builds ∧ (p.1 = s.builds → p.2 = sys.call s.widget)
  /-- The answer to the newest build is fresh. -/
  answers : ∀ p ∈ s.answers, p.1 ≤ s.builds ∧ (p.1 = s.builds → Fresh sys hist s.widget p.2)
  /-- A builder that does not wait has fresh data. -/
  data : s.waiting = false → ∃ r, s.data = some r ∧ Fresh sys hist s.widget r

/-- The invariant holds when the widget is opened. -/
theorem inv_start (sys : System W B κ ρ ω σ α) (w : W) (service : σ) :
    Inv sys [] (start sys w service) :=
  ⟨by simp [start], by simp [start], by simp [start]⟩

/-- Building the widget keeps the invariant, since older calls have older numbers. -/
theorem Inv.build {hist : List (State W κ ρ σ × Action B ω α)} {s : State W κ ρ σ}
    {a : Action B ω α} (hs : Inv sys hist s) (w : W) :
    Inv sys ((s, a) :: hist) (s.build sys w) := by
  refine ⟨?_, ?_, by simp [State.build]⟩
  · intro p hp
    rcases List.mem_append.mp hp with hp | hp
    · have hle := (hs.pending p hp).1
      exact ⟨Nat.le_succ_of_le hle, fun hnew => absurd hnew (by simp [State.build]; omega)⟩
    · rw [List.mem_singleton.mp hp]
      exact ⟨Nat.le_refl _, fun _ => rfl⟩
  · intro p hp
    have hle := (hs.answers p hp).1
    exact ⟨Nat.le_succ_of_le hle, fun hnew => absurd hnew (by simp [State.build]; omega)⟩

/-- **One step.** Every step keeps the invariant. -/
theorem inv_step {hist : List (State W κ ρ σ × Action B ω α)} {s t : State W κ ρ σ}
    {a : Action B ω α} (hs : Inv sys hist s) (hstep : step sys s a = some t) :
    Inv sys ((s, a) :: hist) t := by
  cases a with
  | setState b =>
    obtain ⟨w, _, rfl⟩ := Option.map_eq_some_iff.mp hstep
    exact hs.build w
  | rebuild =>
    cases hstep
    exact hs.build s.widget
  | execute i o =>
    obtain ⟨p, hp, rfl⟩ := Option.map_eq_some_iff.mp hstep
    refine ⟨fun q hq => hs.pending q (List.mem_of_mem_eraseIdx hq), ?_, ?_⟩
    · intro q hq
      rcases List.mem_append.mp hq with hq | hq
      · obtain ⟨hle, hfresh⟩ := hs.answers q hq
        exact ⟨hle, fun hnew => (hfresh hnew).cons rfl⟩
      · -- the answer is given in the present state of the service
        obtain rfl := List.mem_singleton.mp hq
        obtain ⟨hle, hcall⟩ := hs.pending p (List.mem_of_getElem? hp)
        refine ⟨hle, fun hnew => ⟨(s, .execute i o), ?_, i, o, rfl, ?_⟩⟩
        · rw [since_cons rfl]
          exact List.mem_cons_self
        · exact congrArg (fun c => sys.answer o c s.service) (hcall hnew)
    · intro hwaiting
      obtain ⟨r, hr, hfresh⟩ := hs.data hwaiting
      exact ⟨r, hr, hfresh.cons rfl⟩
  | deliver i =>
    obtain ⟨p, hp, rfl⟩ := Option.map_eq_some_iff.mp hstep
    have hanswers : ∀ q ∈ s.answers.eraseIdx i, q.1 ≤ s.builds ∧
        (q.1 = s.builds → Fresh sys ((s, .deliver i) :: hist) s.widget q.2) := by
      intro q hq
      obtain ⟨hle, hfresh⟩ := hs.answers q (List.mem_of_mem_eraseIdx hq)
      exact ⟨hle, fun hnew => (hfresh hnew).cons rfl⟩
    split
    · rename_i hnew
      obtain ⟨_, hfresh⟩ := hs.answers p (List.mem_of_getElem? hp)
      exact ⟨hs.pending, hanswers, fun _ => ⟨p.2, rfl, (hfresh hnew).cons rfl⟩⟩
    · refine ⟨hs.pending, hanswers, fun hwaiting => ?_⟩
      obtain ⟨r, hr, hfresh⟩ := hs.data hwaiting
      exact ⟨r, hr, hfresh.cons rfl⟩
  | serve a =>
    obtain ⟨service, _, rfl⟩ := Option.map_eq_some_iff.mp hstep
    refine ⟨hs.pending, ?_, ?_⟩
    · intro q hq
      obtain ⟨hle, hfresh⟩ := hs.answers q hq
      exact ⟨hle, fun hnew => (hfresh hnew).cons rfl⟩
    · intro hwaiting
      obtain ⟨r, hr, hfresh⟩ := hs.data hwaiting
      exact ⟨r, hr, hfresh.cons rfl⟩

/-- The invariant holds after every run. -/
theorem inv_of_run {w : W} {service : σ} {hist : List (State W κ ρ σ × Action B ω α)}
    {s : State W κ ρ σ} (hrun : Run (step sys) (start sys w service) hist s) : Inv sys hist s := by
  induction hrun with
  | nil => exact inv_start sys w service
  | snoc _ hlast ih => exact inv_step ih hlast

/-- **What is shown is fresh.** After every run a builder that does not wait has an answer to
the call of the widget's present data, given in a state of the service since the widget was
last built. -/
theorem fresh_of_run {w : W} {service : σ} {hist : List (State W κ ρ σ × Action B ω α)}
    {s : State W κ ρ σ} (hrun : Run (step sys) (start sys w service) hist s)
    (hwaiting : s.waiting = false) : ∃ r, s.data = some r ∧ Fresh sys hist s.widget r :=
  (inv_of_run hrun).data hwaiting

/-! ## The service -/

/-- The steps of the service, newest first. -/
def served (hist : List (State W κ ρ σ × Action B ω α)) : List (σ × α) :=
  hist.filterMap fun e =>
    match e.2 with
    | .serve a => some (e.1.service, a)
    | _ => none

/-- The service makes a run of its own. -/
theorem run_served {w : W} {service start' : σ} {older : List (σ × α)}
    {hist : List (State W κ ρ σ × Action B ω α)} {s : State W κ ρ σ}
    (hrun : Run (step sys) (start sys w service) hist s)
    (hbefore : Run sys.serve start' older service) :
    Run sys.serve start' (served hist ++ older) s.service := by
  induction hrun with
  | nil => exact hbefore
  | @snoc hist s t a _ hlast ih =>
    cases a with
    | setState b =>
      obtain ⟨w, _, rfl⟩ := Option.map_eq_some_iff.mp hlast
      exact ih
    | rebuild =>
      cases hlast
      exact ih
    | execute i o =>
      obtain ⟨p, _, rfl⟩ := Option.map_eq_some_iff.mp hlast
      exact ih
    | deliver i =>
      obtain ⟨p, _, rfl⟩ := Option.map_eq_some_iff.mp hlast
      split <;> exact ih
    | serve a =>
      obtain ⟨service, hserve, rfl⟩ := Option.map_eq_some_iff.mp hlast
      exact ih.snoc hserve

end AsyncBuilder
