import Mathlib.Data.Option.Basic

/-!
# States that cannot be told apart

A system answers actions by partial steps, and an observer sees a view of each state it is
in. Two states cannot be told apart if every sequence of actions is possible from both of
them or from neither, and ends in states of one view. For this it is enough to give a
relation of states that have one view, which every single action keeps.
-/

namespace Unwinding

variable {σ α ω : Type*} {step : σ → α → Option σ} {view : σ → ω} {R : σ → σ → Prop}

/-- No sequence of actions leads from the two states to different views. -/
def Indistinguishable (step : σ → α → Option σ) (view : σ → ω) (s t : σ) : Prop :=
  ∀ actions : List α, (actions.foldlM step s).map view = (actions.foldlM step t).map view

/-- A relation of states of one view that every action keeps: from related states it is
possible in both or in neither, and leads to related states. -/
structure Unwinds (step : σ → α → Option σ) (view : σ → ω) (R : σ → σ → Prop) : Prop where
  /-- Related states have one view. -/
  view_eq : ∀ s t, R s t → view s = view t
  /-- An action from related states is answered alike. -/
  step_rel : ∀ s t a, R s t → Option.Rel R (step s a) (step t a)

/-- Related options go on alike if related values do. -/
theorem rel_bind {S : ω → ω → Prop} {x y : Option σ} {f g : σ → Option ω}
    (hxy : Option.Rel R x y) (hfg : ∀ s t, R s t → Option.Rel S (f s) (g t)) :
    Option.Rel S (x.bind f) (y.bind g) := by
  cases hxy with
  | none => exact Option.Rel.none
  | some hst => exact hfg _ _ hst

/-- Options that arise alike from equal ones, up to their last values, are related if these are. -/
theorem rel_bind_map {β γ : Type*} {x : Option β} {k : β → Option γ} {f g : γ → σ}
    (hfg : ∀ c, R (f c) (g c)) :
    Option.Rel R (x.bind fun b => (k b).map f) (x.bind fun b => (k b).map g) := by
  cases x with
  | none => exact Option.Rel.none
  | some b =>
    rw [Option.bind_some, Option.bind_some]
    cases k b with
    | none => exact Option.Rel.none
    | some c => exact Option.Rel.some (hfg c)

/-- Related options have one view if related values do. -/
theorem map_eq_of_rel {x y : Option σ} (hxy : Option.Rel R x y)
    (hview : ∀ s t, R s t → view s = view t) : x.map view = y.map view := by
  cases hxy with
  | none => rfl
  | some hst => exact congrArg some (hview _ _ hst)

/-- A sequence of actions from related states is answered alike. -/
theorem Unwinds.foldlM (h : Unwinds step view R) (actions : List α) {s t : σ} (hst : R s t) :
    Option.Rel R (actions.foldlM step s) (actions.foldlM step t) := by
  induction actions generalizing s t with
  | nil => exact Option.Rel.some hst
  | cons a actions ih =>
    rw [List.foldlM_cons, List.foldlM_cons]
    exact rel_bind (h.step_rel s t a hst) fun _ _ => ih

/-- **Unwinding.** Related states cannot be told apart. -/
theorem Unwinds.indistinguishable (h : Unwinds step view R) {s t : σ} (hst : R s t) :
    Indistinguishable step view s t := by
  intro actions
  exact map_eq_of_rel (h.foldlM actions hst) h.view_eq

end Unwinding
