import EthosApp.Lib.Runs
import EthosApp.Screens.EditControl

/-!
# The dropdowns of the forms

Whenever a form is built, the constructor of a `DropdownButtonFormField` asserts that
exactly one of its items has the value shown. The items are built from the lists of types
and periods, and the list of types names one of them twice.
-/

namespace EthosApp

open Runs

/-- What `DropdownButtonFormField` asserts of its items and its value. -/
def OneItem (items : List String) (value : String) : Prop := items.count value = 1

instance (items : List String) (value : String) : Decidable (OneItem items value) :=
  inferInstanceAs (Decidable (_ = _))

/-- The type that is listed twice. -/
def compressoreAria : String := "Compressore Aria"

/-- A type is shown by one item if it is listed, and not twice. -/
theorem oneItem_tip {s : String} : OneItem tip s ↔ s ∈ tip ∧ s ≠ compressoreAria := by
  constructor
  · intro hone
    have hmem : s ∈ tip := List.count_pos_iff.mp (by rw [hone]; decide)
    refine ⟨hmem, ?_⟩
    rintro rfl
    exact absurd hone (by decide)
  · rintro ⟨hmem, hne⟩
    have hall : ∀ s ∈ tip, s ≠ compressoreAria → OneItem tip s := by decide +kernel
    exact hall s hmem hne

/-- A period is shown by one item if it is listed. -/
theorem oneItem_per {s : String} : OneItem per s ↔ s ∈ per := by
  constructor
  · intro hone
    exact List.count_pos_iff.mp (by rw [hone]; decide)
  · intro hmem
    have hall : ∀ s ∈ per, OneItem per s := by decide +kernel
    exact hall s hmem

/-! ## Forms that offer types and periods -/

section Offers

variable {F A : Type} {act : F → A → Option F} {tipo periodo : F → String}
  {choice : A → Option String}

/-- The actions of a form choose its type and its period from the lists. -/
structure Offers (act : F → A → Option F) (tipo periodo : F → String)
    (choice : A → Option String) : Prop where
  /-- The type is the one chosen, or is kept. -/
  tipo : ∀ f a f', act f a = some f' → tipo f' = (choice a).getD (tipo f)
  /-- A chosen type is listed. -/
  listed : ∀ f a f', act f a = some f' → ∀ s ∈ choice a, s ∈ tip
  /-- The period is kept or chosen from the list. -/
  periodo : ∀ f a f', act f a = some f' → periodo f' = periodo f ∨ periodo f' ∈ per

/-- Listed values stay listed. -/
theorem Offers.step (h : Offers act tipo periodo choice) {f f' : F} {a : A}
    (hf : tipo f ∈ tip ∧ periodo f ∈ per) (hact : act f a = some f') :
    tipo f' ∈ tip ∧ periodo f' ∈ per := by
  constructor
  · rw [h.tipo f a f' hact]
    cases hchoice : choice a with
    | none => exact hf.1
    | some s => exact h.listed f a f' hact s hchoice
  · rcases h.periodo f a f' hact with hkept | hchosen
    · rw [hkept]
      exact hf.2
    · exact hchosen

/-- After any actions on a form, its type and period are listed. -/
theorem Offers.run (h : Offers act tipo periodo choice) {f₀ f : F} {actions : List A}
    (hrun : actions.foldlM act f₀ = some f) (hf₀ : tipo f₀ ∈ tip ∧ periodo f₀ ∈ per) :
    tipo f ∈ tip ∧ periodo f ∈ per := by
  refine foldlM_invariant (I := fun f => tipo f ∈ tip ∧ periodo f ∈ per) ?_ hrun hf₀
  intro g a g' _ hg hact
  exact h.step hg hact

/-- In every run of a form, both dropdowns can be built in every state exactly if the form
does not start with the type that is listed twice and no action chooses it. -/
theorem Offers.always_iff (h : Offers act tipo periodo choice) {f₀ f : F} {hist : List (F × A)}
    (hrun : Run act f₀ hist f) (hf₀ : tipo f₀ ∈ tip ∧ periodo f₀ ∈ per) :
    Always (fun f => OneItem tip (tipo f) ∧ OneItem per (periodo f)) hist f ↔
      tipo f₀ ≠ compressoreAria ∧ Steps (fun _ a => choice a ≠ some compressoreAria) hist := by
  have hone : ∀ f, tipo f ∈ tip ∧ periodo f ∈ per →
      (OneItem tip (tipo f) ∧ OneItem per (periodo f) ↔ tipo f ≠ compressoreAria) := by
    intro f hf
    rw [oneItem_tip, oneItem_per]
    simp [hf]
  refine hrun.always_iff_and (fun f => tipo f ∈ tip ∧ periodo f ∈ per) hf₀ ?_ (hone f₀ hf₀) ?_
  · intro f a f' hf hact
    exact h.step hf hact
  · intro _ f a f' hf hbuilt hact
    rw [hone f' (h.step hf hact), h.tipo f a f' hact]
    rw [hone f hf] at hbuilt
    cases choice a with
    | none => simpa using hbuilt
    | some s => simp

end Offers

namespace Add

/-- The type that an action chooses. -/
def Action.choice : Action → Option String
  | .tipo s => some s
  | _ => none

/-- The form offers the listed types and periods. -/
theorem offers : Offers act tipo periodo Action.choice := by
  constructor <;> intro f a f' hact <;> cases a <;>
    grind [act, Action.choice, Option.map_eq_some_iff]

/-- Both dropdowns of the form can be built. -/
def DropdownsBuild (f : Add) : Prop := OneItem tip f.tipo ∧ OneItem per f.periodo

instance (f : Add) : Decidable f.DropdownsBuild := inferInstanceAs (Decidable (_ ∧ _))

/-- **The dropdowns of the Add form.** They can be built in every state exactly if the type
that is listed twice is never chosen. -/
theorem always_dropdowns_iff {c : String} {hist : List (Add × Action)} {f : Add}
    (hrun : Run act (initState c) hist f) :
    Always DropdownsBuild hist f ↔ Steps (fun _ a => a.choice ≠ some compressoreAria) hist := by
  have hfirst : "Armadi per stoccaggio" ∈ tip ∧ "Mensile" ∈ per ∧
      "Armadi per stoccaggio" ≠ compressoreAria := by decide
  have hiff := offers.always_iff hrun ⟨hfirst.1, hfirst.2.1⟩
  exact hiff.trans (and_iff_right hfirst.2.2)

end Add

namespace EditControl

/-- The type that an action chooses. -/
def Action.choice : Action → Option String
  | .tipo s => some s
  | _ => none

/-- The form offers the listed types and periods. -/
theorem offers : Offers act tipo periodo Action.choice := by
  constructor <;> intro f a f' hact <;> cases a <;>
    grind [act, Action.choice, Option.map_eq_some_iff]

/-- Both dropdowns of the form can be built, over the values of the record, which stay their
initial values, and over the values that are shown. -/
def DropdownsBuild (widget : Controllo) (f : EditControl) : Prop :=
  (OneItem tip widget.tipo ∧ OneItem per widget.periodo) ∧
    OneItem tip f.tipo ∧ OneItem per f.periodo

/-- **The dropdowns of the Edit form.** Opened on a record with a listed type and period,
they can be built in every state exactly if the record's type is not the one that is listed
twice and that type is never chosen. -/
theorem always_dropdowns_iff {widget : Controllo} {f₀ f : EditControl}
    {hist : List (EditControl × Action)} (hwidget : widget.tipo ∈ tip ∧ widget.periodo ∈ per)
    (hinit : initState widget = some f₀) (hrun : Run act f₀ hist f) :
    Always (DropdownsBuild widget) hist f ↔ widget.tipo ≠ compressoreAria ∧
      Steps (fun _ a => a.choice ≠ some compressoreAria) hist := by
  obtain ⟨htipo, hperiodo, _⟩ := initState_spec hinit
  have hshown := offers.always_iff hrun (by rwa [htipo, hperiodo])
  rw [htipo] at hshown
  rw [← hshown]
  constructor
  · rintro ⟨hlast, hvisited⟩
    exact ⟨hlast.2, fun e he => (hvisited e he).2⟩
  · intro halways
    have hrecord := hrun.always_start halways
    rw [htipo, hperiodo] at hrecord
    exact ⟨⟨hrecord, halways.1⟩, fun e he => ⟨hrecord, halways.2 e he⟩⟩

/-- As it is opened, the form shows dropdowns that can be built exactly if the record's type is
not the one that is listed twice. -/
theorem dropdownsBuild_initState {widget : Controllo} {f : EditControl}
    (hwidget : widget.tipo ∈ tip ∧ widget.periodo ∈ per) (hinit : initState widget = some f) :
    DropdownsBuild widget f ↔ widget.tipo ≠ compressoreAria := by
  have hiff := always_dropdowns_iff hwidget hinit Run.nil
  simpa [Always, Steps] using hiff

end EditControl

end EthosApp
