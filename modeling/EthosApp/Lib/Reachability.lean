import Mathlib.Logic.Relation

/-!
# Reachability in a guarded transition system

One state reaches another if some actions lead from it to the other.
-/

namespace Runs

variable {σ α : Type*} {step : σ → α → Option σ} {s t u : σ}

/-- Some actions lead from one state to the other. -/
def Reaches (step : σ → α → Option σ) : σ → σ → Prop :=
  Relation.ReflTransGen fun s t => ∃ a, step s a = some t

/-- A state reaches itself. -/
theorem Reaches.refl (s : σ) : Reaches step s s := Relation.ReflTransGen.refl

/-- What is reached from a reached state is reached. -/
theorem Reaches.trans (hst : Reaches step s t) (htu : Reaches step t u) : Reaches step s u :=
  Relation.ReflTransGen.trans hst htu

/-- A list of actions leads from one state to the other. -/
theorem Reaches.of_actions {as : List α} (hfold : as.foldlM step s = some t) :
    Reaches step s t := by
  induction as generalizing s with
  | nil =>
    cases hfold
    exact Reaches.refl _
  | cons a as ih =>
    rw [List.foldlM_cons, Option.bind_eq_bind, Option.bind_eq_some_iff] at hfold
    obtain ⟨u, hstep, hrest⟩ := hfold
    exact Relation.ReflTransGen.head ⟨a, hstep⟩ (ih hrest)

/-- An invariant of the step function is kept on the way. -/
theorem Reaches.invariant {I : σ → Prop} (hreaches : Reaches step s t) (hs : I s)
    (hstep : ∀ s a t, I s → step s a = some t → I t) : I t := by
  induction hreaches with
  | refl => exact hs
  | tail _ hlast ih =>
    obtain ⟨a, hlast⟩ := hlast
    exact hstep _ a _ ih hlast

end Runs
