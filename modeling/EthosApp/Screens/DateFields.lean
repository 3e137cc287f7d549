import EthosApp.Dart.FieldDate

/-!
# The date fields of the forms

What a user can do with a date field, and the lower bounds that the forms hand to the
date picker. A picker offers the days from its first date to 1 January 2100.
-/

namespace EthosApp

open Dart Gregorian

/-- A user action on a date field. -/
inductive DateAction
  | type (s : String)
  | pick (d : CivilDate)
  | clear

/-- The argument `lastDate: DateTime(2100)`. -/
def lastDate : CivilDate := ⟨2100, 1, 1, by decide, by decide, by decide, by decide⟩

/-- `DateTime(1900)`. -/
def firstDate1900 : CivilDate := ⟨1900, 1, 1, by decide, by decide, by decide, by decide⟩

/-- `DateTime.parse(text.isEmpty ? "1900-01-01" : text.split("/").reversed.join("-"))`. -/
def firstDateFrom (f : DateTimeField) : Option DateTime :=
  if f.text = "" then DateTime.parse "1900-01-01" else f.parsed

/-- The field after an action. A day is picked between the given first date, where that
can be computed, and the last date. -/
def dateAction (first : Option CivilDate) : DateAction → Option DateTimeField
  | .type s => some (.typed s)
  | .pick d =>
    match first with
    | some c => if c ≤ d ∧ d ≤ lastDate then some (.picked (DateTime.midnight d)) else none
    | none => none
  | .clear => some (.typed "")

/-- The text that an action enters. -/
def DateAction.text : DateAction → String
  | .type s => s
  | .pick d => DateFormat.format (DateTime.midnight d)
  | .clear => ""

/-- An action leaves in the field the text that it enters, with the value of this text. -/
theorem dateAction_eq {first : Option CivilDate} {a : DateAction} {f : DateTimeField}
    (hact : dateAction first a = some f) : f = .typed a.text := by
  cases a with
  | type s =>
    cases hact
    rfl
  | clear =>
    cases hact
    rfl
  | pick d =>
    cases first with
    | none => cases hact
    | some c =>
      simp only [dateAction, Option.ite_none_right_eq_some, Option.some.injEq] at hact
      obtain ⟨_, rfl⟩ := hact
      rfl

/-- The validator `(value) => value!.isNotEmpty ? null : "Il campo è vuoto"`. -/
def notEmpty (s : String) : Option String := if s ≠ "" then none else some "Il campo è vuoto"

/-- A field that a handler can parse is not empty. -/
theorem text_ne_of_parsed {f : DateTimeField} {t : DateTime} (hparsed : f.parsed = some t) :
    f.text ≠ "" := by
  have hempty : DateTime.parse (splitReversedJoin '/' '-' "") = none := by decide +kernel
  intro htext
  rw [DateTimeField.parsed, htext, hempty] at hparsed
  cases hparsed

/-- A field that a handler can parse is the first date of the picker it bounds. -/
theorem firstDateFrom_of_parsed {f : DateTimeField} {t : DateTime} (hparsed : f.parsed = some t) :
    firstDateFrom f = some t := by
  rw [firstDateFrom, if_neg (text_ne_of_parsed hparsed), hparsed]

/-- What every action of a sequence keeps holds after the sequence. -/
theorem foldlM_invariant {F A : Type} {act : F → A → Option F} {I : F → Prop} {actions : List A}
    {f f' : F} (hact : ∀ f a f', a ∈ actions → I f → act f a = some f' → I f')
    (hrun : actions.foldlM act f = some f') (hinit : I f) : I f' := by
  induction actions generalizing f with
  | nil =>
    cases hrun
    exact hinit
  | cons a actions ih =>
    rw [List.foldlM_cons] at hrun
    obtain ⟨g, hg, hrest⟩ := Option.bind_eq_some_iff.mp hrun
    refine ih (fun f a f' ha => hact f a f' (List.mem_cons_of_mem _ ha)) hrest ?_
    exact hact f a g List.mem_cons_self hinit hg

/-- What no action of a sequence changes is the same after the sequence. -/
theorem foldlM_frame {F A β : Type} {act : F → A → Option F} (part : F → β) {keeps : A → Prop}
    (hact : ∀ f a f', act f a = some f' → keeps a → part f' = part f) {actions : List A} {f f' : F}
    (hrun : actions.foldlM act f = some f') (hkeeps : ∀ a ∈ actions, keeps a) :
    part f' = part f := by
  refine foldlM_invariant (I := fun g => part g = part f) ?_ hrun rfl
  intro g a g' ha hg hstep
  rw [hact g a g' hstep (hkeeps a ha), hg]

/-- The last text that a sequence of actions enters in a field. -/
def lastEntry {A : Type} (entry : A → Option String) (actions : List A) : Option String :=
  (actions.filterMap entry).getLast?

/-- Nothing is entered in a field exactly when no action enters anything. -/
theorem lastEntry_eq_none {A : Type} {entry : A → Option String} {actions : List A} :
    lastEntry entry actions = none ↔ ∀ a ∈ actions, entry a = none := by
  rw [lastEntry, List.getLast?_eq_none_iff, List.filterMap_eq_nil_iff]

/-- A field shows the text that was entered last, and the text it had as long as none was. -/
theorem foldlM_lastEntry {F A : Type} {act : F → A → Option F} (text : F → String)
    {entry : A → Option String}
    (hact : ∀ f a f', act f a = some f' → text f' = (entry a).getD (text f))
    {actions : List A} {f f' : F} (hrun : actions.foldlM act f = some f') :
    text f' = (lastEntry entry actions).getD (text f) := by
  induction actions generalizing f with
  | nil =>
    cases hrun
    rfl
  | cons a actions ih =>
    rw [List.foldlM_cons] at hrun
    obtain ⟨g, hg, hrest⟩ := Option.bind_eq_some_iff.mp hrun
    rw [ih hrest, hact f a g hg]
    cases hentry : entry a with
    | none => rw [lastEntry, lastEntry, List.filterMap_cons_none hentry, Option.getD_none]
    | some s =>
      rw [lastEntry, lastEntry, List.filterMap_cons_some hentry, List.getLast?_cons,
        Option.getD_some, Option.getD_some]

/-- Whatever a user does with a date field, it has a value only over an accepted text. -/
theorem dateAction_accepted {first : Option CivilDate} {a : DateAction} {f : DateTimeField}
    (hact : dateAction first a = some f) : f.Accepted := by
  rw [dateAction_eq hact]
  exact id

/-! ## Bounding the second date by the first -/

/-- What an action on a form does to its two dates: the picker of the second takes its
lower bound from the first. -/
inductive DatesAction
  | first (a : DateAction)
  | second (a : DateAction)
  | other

/-- The effect of an action on the two date fields. -/
def DatesAction.Step (u v u' v' : DateTimeField) : DatesAction → Prop
  | .first _ => True
  | .second a => u' = u ∧ dateAction ((firstDateFrom u).map DateTime.date) a = some v'
  | .other => u' = u ∧ v' = v

/-- Whether the second date has been picked since either date was last changed otherwise. -/
def DatesAction.bounds (bounded : Bool) : DatesAction → Bool
  | .first _ => false
  | .second (.pick _) => true
  | .second _ => false
  | .other => bounded

/-- The last change of a date picked the second one. -/
def pickedLast (actions : List DatesAction) : Bool := actions.foldl DatesAction.bounds false

/-- The second field holds a day picked from the bound given by the first. -/
def PickedFrom (u v : DateTimeField) : Prop :=
  ∃ (t : DateTime) (d : CivilDate), firstDateFrom u = some t ∧
    v = .picked (DateTime.midnight d) ∧ t.date ≤ d ∧ d ≤ lastDate

/-- Picking the second date bounds it by the first, and other actions keep the bound. -/
theorem pickedFrom_step {u v u' v' : DateTimeField} {a : DatesAction} {bounded : Bool}
    (hstep : a.Step u v u' v') (hbounded : bounded = true → PickedFrom u v)
    (hafter : a.bounds bounded = true) : PickedFrom u' v' := by
  cases a with
  | first a => cases hafter
  | other =>
    obtain ⟨rfl, rfl⟩ := hstep
    exact hbounded hafter
  | second a =>
    obtain ⟨rfl, hfield⟩ := hstep
    cases a with
    | type s => cases hafter
    | clear => cases hafter
    | pick d =>
      cases hfirst : firstDateFrom u' with
      | none =>
        rw [hfirst] at hfield
        cases hfield
      | some t =>
        simp only [hfirst, Option.map_some, dateAction, Option.ite_none_right_eq_some,
          Option.some.injEq] at hfield
        obtain ⟨⟨hlow, hhigh⟩, rfl⟩ := hfield
        exact ⟨t, d, hfirst, rfl, hlow, hhigh⟩

/-- The bound after a sequence of actions. The induction is on the actions, with the
bound as far as it is already in force. -/
theorem pickedFrom_of_foldlM {F A : Type} {act : F → A → Option F} (dates : A → DatesAction)
    (first second : F → DateTimeField)
    (hact : ∀ f a f', act f a = some f' →
      (dates a).Step (first f) (second f) (first f') (second f'))
    (bounded : Bool) {actions : List A} {f f' : F} (hrun : actions.foldlM act f = some f')
    (hbounded : bounded = true → PickedFrom (first f) (second f))
    (hlast : (actions.map dates).foldl DatesAction.bounds bounded = true) :
    PickedFrom (first f') (second f') := by
  induction actions generalizing f bounded with
  | nil =>
    cases hrun
    exact hbounded hlast
  | cons a actions ih =>
    rw [List.foldlM_cons] at hrun
    obtain ⟨g, hg, hrest⟩ := Option.bind_eq_some_iff.mp hrun
    exact ih _ hrest (pickedFrom_step (hact f a g hg) hbounded) hlast

/-- A form whose last change of a date picked the second one holds a bounded day. -/
theorem pickedFrom_of_pickedLast {F A : Type} {act : F → A → Option F} (dates : A → DatesAction)
    (first second : F → DateTimeField)
    (hact : ∀ f a f', act f a = some f' →
      (dates a).Step (first f) (second f) (first f') (second f'))
    {actions : List A} {f f' : F} (hrun : actions.foldlM act f = some f')
    (hlast : pickedLast (actions.map dates) = true) : PickedFrom (first f') (second f') := by
  refine pickedFrom_of_foldlM dates first second hact false hrun ?_ hlast
  intro h
  cases h

/-- A day picked from the bound of a parsed date is parsed as no earlier day. -/
theorem PickedFrom.le {u v : DateTimeField} {s t : DateTime} (hpicked : PickedFrom u v)
    (hu : u.parsed = some s) (hv : v.parsed = some t) (hyear : 0 ≤ s.date.year) :
    s.date ≤ t.date ∧ t.date ≤ lastDate := by
  obtain ⟨s', d, hfirst, rfl, hlow, hhigh⟩ := hpicked
  rw [firstDateFrom_of_parsed hu] at hfirst
  cases hfirst
  have hyears : s.date.year ≤ d.year ∧ d.year ≤ 2100 := ⟨CivilDate.year_mono hlow,
    CivilDate.year_mono hhigh⟩
  rw [DateTimeField.parsed_format (t := DateTime.midnight d) rfl (hyear.trans hyears.1)
    (DateTime.inRange_midnight (c := d) ⟨by omega, by omega⟩)] at hv
  cases hv
  exact ⟨hlow, hhigh⟩

end EthosApp
