import Mathlib.Data.List.Basic

/-!
# Runs of a guarded transition system

A system is given by a partial step function: `step s a` is the state after action `a`
in state `s`, or `none` where the action is not possible. A run records the actions
taken and the states they were taken in, so that a condition can be put on the steps of
a run and a property asked of every state that it visits.
-/

namespace Runs

variable {σ α : Type*} {step : σ → α → Option σ} {start : σ}

/-- A run from `start`: the steps taken, newest first, and the state reached. -/
inductive Run (step : σ → α → Option σ) (start : σ) : List (σ × α) → σ → Prop
  | nil : Run step start [] start
  | snoc {hist : List (σ × α)} {s t : σ} {a : α} : Run step start hist s →
      step s a = some t → Run step start ((s, a) :: hist) t

/-- Take a list of actions after a given history. -/
def exec (step : σ → α → Option σ) (hist : List (σ × α)) (s : σ) :
    List α → Option (List (σ × α) × σ)
  | [] => some (hist, s)
  | a :: as => (step s a).bind fun t => exec step ((s, a) :: hist) t as

/-- Actions taken after a run continue it. -/
theorem Run.exec {as : List α} {hist : List (σ × α)} {s : σ} {r : List (σ × α) × σ}
    (hrun : Run step start hist s) (hexec : exec step hist s as = some r) :
    Run step start r.1 r.2 := by
  induction as generalizing hist s with
  | nil =>
    cases hexec
    exact hrun
  | cons a as ih =>
    obtain ⟨t, hstep, hrest⟩ := Option.bind_eq_some_iff.mp hexec
    exact ih (hrun.snoc hstep) hrest

/-- The run that takes a list of possible actions from the start. -/
theorem run_get {as : List α} (hexec : (exec step [] start as).isSome) :
    Run step start ((exec step [] start as).get hexec).1 ((exec step [] start as).get hexec).2 :=
  Run.nil.exec (Option.some_get hexec).symm

/-- A property of every state that a run visits, the last one included. -/
def Always (I : σ → Prop) (hist : List (σ × α)) (t : σ) : Prop :=
  I t ∧ ∀ e ∈ hist, I e.1

/-- A condition on every step that a run takes. -/
def Steps (Good : σ → α → Prop) (hist : List (σ × α)) : Prop := ∀ e ∈ hist, Good e.1 e.2

/-- A condition on the steps of a longer run is one on its last step and on the others. -/
theorem steps_cons {Good : σ → α → Prop} {hist : List (σ × α)} {s : σ} {a : α} :
    Steps Good ((s, a) :: hist) ↔ Good s a ∧ Steps Good hist := by
  simp [Steps]

/-- A property of the states of a longer run is one of its last state and of the others. -/
theorem always_cons {I : σ → Prop} {hist : List (σ × α)} {s t : σ} {a : α} :
    Always I ((s, a) :: hist) t ↔ I t ∧ Always I hist s := by
  simp [Always]

/-- A property that every step of a kind keeps holds in every state of a run of such steps. -/
theorem Run.always_of_steps {I : σ → Prop} {Good : σ → α → Prop} {hist : List (σ × α)} {t : σ}
    (hrun : Run step start hist t) (hgood : Steps Good hist) (hinit : I start)
    (hstep : ∀ s a t, I s → Good s a → step s a = some t → I t) : Always I hist t := by
  induction hrun with
  | nil => exact ⟨hinit, by simp⟩
  | snoc _ hlast ih =>
    obtain ⟨hlastGood, hbefore⟩ := steps_cons.mp hgood
    have hrest := ih hbefore
    exact always_cons.mpr ⟨hstep _ _ _ hrest.1 hlastGood hlast, hrest⟩

/-- An invariant of the step function holds in every state of a run. -/
theorem Run.always {I : σ → Prop} {hist : List (σ × α)} {t : σ} (hrun : Run step start hist t)
    (hinit : I start) (hstep : ∀ s a t, I s → step s a = some t → I t) : Always I hist t := by
  have hgood : Steps (fun _ _ => True) hist := fun _ _ => trivial
  exact hrun.always_of_steps hgood hinit fun s a t hs _ => hstep s a t hs

/-- Where a step keeps a property exactly if it meets a condition, the property holds in
every state of a run exactly if every step of the run meets the condition. A background
invariant may be used for the single step. -/
theorem Run.always_iff (Inv : σ → Prop) {I : σ → Prop} {Good : σ → α → Prop}
    {hist : List (σ × α)} {t : σ} (hrun : Run step start hist t) (hinv : Inv start)
    (hinvStep : ∀ s a t, Inv s → step s a = some t → Inv t) (hinit : I start)
    (hstep : ∀ s a t, Inv s → I s → step s a = some t → (I t ↔ Good s a)) :
    Always I hist t ↔ Steps Good hist := by
  induction hrun with
  | nil => simp [Always, Steps, hinit]
  | snoc hbefore hlast ih =>
    have hinvariant := (hbefore.always hinv hinvStep).1
    rw [always_cons, steps_cons, ← ih]
    constructor
    · rintro ⟨ht, hrest⟩
      exact ⟨(hstep _ _ _ hinvariant hrest.1 hlast).mp ht, hrest⟩
    · rintro ⟨hgood, hrest⟩
      exact ⟨(hstep _ _ _ hinvariant hrest.1 hlast).mpr hgood, hrest⟩

/-- In a run of steps of a kind, where a step of the kind keeps a property exactly if it meets
a condition, the property holds in every state exactly if every step meets the condition. -/
theorem Run.always_iff_of_steps (Inv : σ → Prop) {I : σ → Prop} {Kind Good : σ → α → Prop}
    {hist : List (σ × α)} {t : σ} (hrun : Run step start hist t) (hkind : Steps Kind hist)
    (hinv : Inv start) (hinvStep : ∀ s a t, Inv s → Kind s a → step s a = some t → Inv t)
    (hinit : I start)
    (hstep : ∀ s a t, Inv s → Kind s a → I s → step s a = some t → (I t ↔ Good s a)) :
    Always I hist t ↔ Steps Good hist := by
  induction hrun with
  | nil => simp [Always, Steps, hinit]
  | snoc hbefore hlast ih =>
    obtain ⟨hlastKind, hkindBefore⟩ := steps_cons.mp hkind
    have hinvariant := (hbefore.always_of_steps hkindBefore hinv hinvStep).1
    rw [always_cons, steps_cons, ← ih hkindBefore]
    constructor
    · rintro ⟨ht, hrest⟩
      exact ⟨(hstep _ _ _ hinvariant hlastKind hrest.1 hlast).mp ht, hrest⟩
    · rintro ⟨hgood, hrest⟩
      exact ⟨(hstep _ _ _ hinvariant hlastKind hrest.1 hlast).mpr hgood, hrest⟩

/-- Every step of a run was possible. -/
theorem Run.step_eq_some {hist : List (σ × α)} {t : σ} (hrun : Run step start hist t) :
    Steps (fun s a => ∃ u, step s a = some u) hist := by
  induction hrun with
  | nil => simp [Steps]
  | snoc _ hlast ih => exact steps_cons.mpr ⟨⟨_, hlast⟩, ih⟩

/-- Every state that a run visits was reached by an older part of the run. -/
theorem Run.before {hist : List (σ × α)} {t : σ} (hrun : Run step start hist t) {e : σ × α}
    (he : e ∈ hist) : ∃ older, e :: older <:+ hist ∧ Run step start older e.1 := by
  induction hrun with
  | nil => cases he
  | @snoc hist s t a hbefore _ ih =>
    rcases List.mem_cons.mp he with rfl | he
    · exact ⟨hist, List.suffix_rfl, hbefore⟩
    · obtain ⟨older, holder, hrun⟩ := ih he
      exact ⟨older, holder.trans (List.suffix_cons _ hist), hrun⟩

/-- A run visits its start. -/
theorem Run.always_start {I : σ → Prop} {hist : List (σ × α)} {t : σ} (hrun : Run step start hist t)
    (halways : Always I hist t) : I start := by
  induction hrun with
  | nil => exact halways.1
  | snoc _ _ ih => exact ih (always_cons.mp halways).2

/-- A property that holds in every state of a run exactly if it holds at the start, under
a condition of its own, and every step meets a condition. -/
theorem Run.always_iff_and (Inv : σ → Prop) {I : σ → Prop} {Good : σ → α → Prop} {P : Prop}
    {hist : List (σ × α)} {t : σ} (hrun : Run step start hist t) (hinv : Inv start)
    (hinvStep : ∀ s a t, Inv s → step s a = some t → Inv t) (hinit : I start ↔ P)
    (hstep : P → ∀ s a t, Inv s → I s → step s a = some t → (I t ↔ Good s a)) :
    Always I hist t ↔ P ∧ Steps Good hist := by
  by_cases hp : P
  · rw [hrun.always_iff Inv hinv hinvStep (hinit.mpr hp) (hstep hp)]
    exact (and_iff_right hp).symm
  · constructor
    · intro halways
      exact absurd (hinit.mp (hrun.always_start halways)) hp
    · intro hgood
      exact absurd hgood.1 hp

end Runs
