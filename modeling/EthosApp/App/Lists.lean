import EthosApp.App.Guarantees
import EthosApp.Lib.AsyncBuilder

/-!
# The lists of the home page and of all machines

Both pages build a list from a query that every build starts anew, while the clients go on.
A day that is selected while the query of another day is open does not get the answer to the
older query, in whatever order the answers arrive. So the home page shows the agenda of the
selected day, as it was at some moment since the page was last built.
-/

namespace EthosApp

open Dart Gregorian Firestore DocStore Runs

namespace App

/-- What the builder of a list shows. -/
inductive ListView
  | attesa
  | errore
  | vuoto
  | lista (cards : List Controllo)

/-- The builder of a list. The result of a query is `none` where it ends with an error. -/
def ListView.ofSnapshot (waiting : Bool) (data : Option (Option (List Controllo))) : ListView :=
  if waiting then .attesa
  else
    match data with
    | none => .errore
    | some none => .errore
    | some (some []) => .vuoto
    | some (some cards) => .lista cards

/-- The cards of a list that has been loaded. -/
def ListView.cards : ListView → Option (List Controllo)
  | vuoto => some []
  | lista cards => some cards
  | _ => none

/-- A list with cards has loaded them. -/
theorem ListView.cards_eq_some {waiting : Bool} {data : Option (Option (List Controllo))}
    {cards : List Controllo} :
    (ListView.ofSnapshot waiting data).cards = some cards ↔
      waiting = false ∧ data = some (some cards) := by
  unfold ofSnapshot
  cases waiting with
  | true => simp [ListView.cards]
  | false =>
    rcases data with _ | _ | _ | _ <;> simp [ListView.cards]

/-- A list with an error has no answer, or one that is an error. -/
theorem ListView.eq_errore {waiting : Bool} {data : Option (Option (List Controllo))}
    (h : ListView.ofSnapshot waiting data = .errore) :
    waiting = false ∧ ∀ r, data ≠ some (some r) := by
  unfold ofSnapshot at h
  cases waiting with
  | true => simp at h
  | false => rcases data with _ | _ | _ | _ <;> simp_all

namespace Home

/-- The formats of the calendar. -/
inductive CalendarFormat
  | month
  | twoWeeks
  | week
  deriving DecidableEq

/-- The data of the home page. -/
structure Widget where
  /-- The selected day. -/
  giorno : DateTime
  /-- The format of the calendar. -/
  calendarFormat : CalendarFormat

/-- The home page as it is opened at a time. -/
def initState (now : DateTime) : Widget := ⟨now, .week⟩

/-- What changes the data of the home page, or builds it again. -/
inductive Change
  | onDaySelected (selectedDay : DateTime)
  | onFormatChanged (format : CalendarFormat)
  /-- A range was picked for the export of the register. -/
  | rangePicker

/-- The page after a change. It is not built again for the format that it has. -/
def update (w : Widget) : Change → Option Widget
  | .onDaySelected selectedDay => some { w with giorno := selectedDay }
  | .onFormatChanged format =>
    if w.calendarFormat ≠ format then some { w with calendarFormat := format } else none
  | .rangePicker => some w

/-- The home page on the app. -/
def system (zone : Zone) :
    AsyncBuilder.System Widget Change DateTime (Option (List Controllo)) Outcome State Event where
  update := update
  call := Widget.giorno
  answer o giorno s :=
    match o with
    | .success => getControlliPerData giorno Hour.ten.text s.backend
    | .failure => none
  serve := step zone

end Home

namespace AllControls

/-- The list of all machines on the app. The page has no data of its own. -/
def system (zone : Zone) :
    AsyncBuilder.System Unit Empty Unit (Option (List Controllo)) Outcome State Event where
  update _ a := nomatch a
  call := id
  answer o _ s :=
    match o with
    | .success => getAllControls s.backend
    | .failure => none
  serve := step zone

end AllControls

/-! ## The moment of a list -/

section Moment

open AsyncBuilder

variable {W B κ : Type} {zone : Zone} {signedIn : ℕ → Bool}
  {sys : System W B κ (Option (List Controllo)) Outcome State Event}

/-- The registry at some moment of the run of a page, after its older steps and after what
happened before the page was opened. -/
def registryAt (zone : Zone)
    (older : List (AsyncBuilder.State W κ (Option (List Controllo)) State ×
      AsyncBuilder.Action B Outcome Event)) (before : List (State × Event)) : Registry :=
  Registry.empty.replay (eventLog zone (served older ++ before))

/-- A page that does not wait shows what its query was answered with at some moment since it
was last built. -/
theorem exists_moment (hserve : sys.serve = step zone) {before : List (State × Event)} {app : State}
    (hbefore : Run (step zone) (State.start signedIn) before app) {w : W}
    {hist : List (AsyncBuilder.State W κ (Option (List Controllo)) State ×
      AsyncBuilder.Action B Outcome Event)}
    {s : AsyncBuilder.State W κ (Option (List Controllo)) State}
    (hrun : Run (AsyncBuilder.step sys) (start sys w app) hist s)
    (hplain : ∀ e ∈ eventLog zone (served hist ++ before), EthosApp.Event.Plain e)
    (hwaiting : s.waiting = false) :
    ∃ r, s.data = some r ∧ ∃ e ∈ since hist, ∃ older, e :: older <:+ hist ∧
      Represents zone (registryAt zone older before) e.1.service.backend ∧
      ∃ i o, e.2 = .execute i o ∧ r = sys.answer o (sys.call s.widget) e.1.service := by
  obtain ⟨r, hr, e, he, i, o, hexecute, hanswer⟩ := fresh_of_run hrun hwaiting
  obtain ⟨older, holder, hrunOlder⟩ := hrun.before ((List.takeWhile_sublist _).subset he)
  rw [← hserve] at hbefore
  have hserved := run_served hrunOlder hbefore
  rw [hserve] at hserved
  refine ⟨r, hr, e, he, older, holder, represents_of_run hserved ?_, i, o, hexecute, hanswer⟩
  intro x hx
  obtain ⟨y, hy, hx⟩ := List.mem_flatMap.mp hx
  refine hplain x (List.mem_flatMap.mpr ⟨y, ?_, hx⟩)
  have hsuffix : older <:+ hist := (List.suffix_cons e older).trans holder
  rcases List.mem_append.mp hy with hy | hy
  · obtain ⟨z, hz, hy⟩ := List.mem_filterMap.mp hy
    exact List.mem_append_left _ (List.mem_filterMap.mpr ⟨z, hsuffix.subset hz, hy⟩)
  · exact List.mem_append_right _ hy

/-- A list whose query succeeds on every represented registry shows what the query says of
the registry of some moment since the page was last built, and an error only if a query has
failed since then. -/
theorem shown_at_moment (hserve : sys.serve = step zone) {before : List (State × Event)}
    {app : State} (hbefore : Run (step zone) (State.start signedIn) before app) {w : W}
    {hist : List (AsyncBuilder.State W κ (Option (List Controllo)) State ×
      AsyncBuilder.Action B Outcome Event)}
    {s : AsyncBuilder.State W κ (Option (List Controllo)) State}
    (hrun : Run (AsyncBuilder.step sys) (start sys w app) hist s)
    (hplain : ∀ e ∈ eventLog zone (served hist ++ before), EthosApp.Event.Plain e)
    {Lists : Registry → List Controllo → Prop}
    (hfailure : ∀ call t, sys.answer .failure call t = none)
    (hsuccess : ∀ A t, Represents zone A t.backend →
      ∃ ms, sys.answer .success (sys.call s.widget) t = some ms ∧ Lists A ms) :
    (∀ cards, (ListView.ofSnapshot s.waiting s.data).cards = some cards →
      ∃ e ∈ since hist, ∃ older, e :: older <:+ hist ∧ Lists (registryAt zone older before) cards) ∧
    (ListView.ofSnapshot s.waiting s.data = .errore →
      ∃ e ∈ since hist, ∃ i, e.2 = .execute i .failure) := by
  constructor
  · intro cards hcards
    obtain ⟨hwaiting, hdata⟩ := ListView.cards_eq_some.mp hcards
    obtain ⟨r, hr, e, he, older, holder, hrep, i, o, _, hanswer⟩ :=
      exists_moment hserve hbefore hrun hplain hwaiting
    obtain rfl : some cards = r := Option.some.inj (hdata.symm.trans hr)
    obtain ⟨ms, hms, hlists⟩ := hsuccess _ _ hrep
    cases o with
    | failure =>
      rw [hfailure] at hanswer
      cases hanswer
    | success =>
      obtain rfl : cards = ms := Option.some.inj (hanswer.trans hms)
      exact ⟨e, he, older, holder, hlists⟩
  · intro herrore
    obtain ⟨hwaiting, hnone⟩ := ListView.eq_errore herrore
    obtain ⟨r, hr, e, he, older, _, hrep, i, o, hexecute, hanswer⟩ :=
      exists_moment hserve hbefore hrun hplain hwaiting
    cases o with
    | failure => exact ⟨e, he, i, hexecute⟩
    | success =>
      obtain ⟨ms, hms, _⟩ := hsuccess _ _ hrep
      obtain rfl : r = some ms := hanswer.trans hms
      exact absurd hr (hnone ms)

end Moment

namespace Home

open AsyncBuilder

/-- The home page and the app. -/
abbrev State := AsyncBuilder.State Widget DateTime (Option (List Controllo)) App.State

/-- What happens to the home page and the app. -/
abbrev Action := AsyncBuilder.Action Change Outcome Event

/-- What the list of the home page shows. -/
def view (s : State) : ListView := .ofSnapshot s.waiting s.data

/-- **The home page shows the agenda of the selected day.** Whatever days are selected, in
whatever order the queries are executed and answered, and whatever the clients do meanwhile,
the cards that the home page shows are those of the machines whose next check was due on the
selected day, each of them once, at some moment since the page was last built. It shows an
error only if a query has failed since then. -/
theorem agenda_of_run {zone : Zone} {signedIn : ℕ → Bool} {before : List (App.State × Event)}
    {app : App.State} (hbefore : Run (step zone) (App.State.start signedIn) before app)
    {now : DateTime} {hist : List (State × Action)} {s : State}
    (hrun : Run (AsyncBuilder.step (system zone)) (start (system zone) (initState now) app) hist s)
    (hplain : ∀ e ∈ eventLog zone (served hist ++ before), EthosApp.Event.Plain e)
    (hyear : 0 ≤ s.widget.giorno.date.year ∧ s.widget.giorno.date.year ≤ 9999) :
    (∀ cards, (view s).cards = some cards →
      ∃ e ∈ since hist, ∃ older, e :: older <:+ hist ∧ (cards.map Controllo.cod).Nodup ∧
        ∀ c, c ∈ cards ↔ ∃ code m, (registryAt zone older before code).machine = some m ∧
          m.prossimo = s.widget.giorno.date ∧ c = (m.record code).atHour Hour.ten) ∧
    (view s = .errore → ∃ e ∈ since hist, ∃ i, e.2 = .execute i .failure) :=
  shown_at_moment rfl hbefore hrun hplain (fun _ _ => rfl) fun _ _ hrep =>
    hrep.getControlliPerData s.widget.giorno Hour.ten hyear

/-- Another day is selected while the query of the first one is open, and the older query is
executed and answered before the newer one. -/
def selectOther : List Action :=
  [.setState (.onDaySelected (.midnight (.normalize 2024 1 16))), .execute 0 .success, .deliver 0,
    .execute 0 .success, .deliver 0]

/-- The run of the home page after that of the two clients. -/
def runSelectOther : Option (List (State × Action) × State) :=
  exec (AsyncBuilder.step (system (Zone.fixed 3600 Zone.hour_lt_day))) []
    (start (system (Zone.fixed 3600 Zone.hour_lt_day))
      (initState (.midnight (.normalize 2023 1 16)))
      (runTwoClients.get runTwoClients_isSome).2) selectOther

/-- The actions on the home page are possible one after the other. -/
theorem runSelectOther_isSome : runSelectOther.isSome := by decide +kernel

/-- The home page shows the one machine that is due on the day selected last. -/
theorem agenda_of_run_selectOther :
    (view (runSelectOther.get runSelectOther_isSome).2).cards.map List.length = some 1 ∧
      ∀ cards, (view (runSelectOther.get runSelectOther_isSome).2).cards = some cards →
        ∃ e ∈ since (runSelectOther.get runSelectOther_isSome).1, ∃ older,
          e :: older <:+ (runSelectOther.get runSelectOther_isSome).1 ∧
          (cards.map Controllo.cod).Nodup ∧
          ∀ c, c ∈ cards ↔ ∃ code m,
            (registryAt (Zone.fixed 3600 Zone.hour_lt_day) older
              (runTwoClients.get runTwoClients_isSome).1 code).machine = some m ∧
            m.prossimo = (runSelectOther.get runSelectOther_isSome).2.widget.giorno.date ∧
            c = (m.record code).atHour Hour.ten :=
  ⟨by decide +kernel, (agenda_of_run (run_get runTwoClients_isSome) (run_get runSelectOther_isSome)
    (by decide +kernel) (by decide +kernel)).1⟩

end Home

namespace AllControls

open AsyncBuilder

/-- The list of all machines and the app. -/
abbrev State := AsyncBuilder.State Unit Unit (Option (List Controllo)) App.State

/-- What happens to the list of all machines and the app. -/
abbrev Action := AsyncBuilder.Action Empty Outcome Event

/-- What the list of all machines shows. -/
def view (s : State) : ListView := .ofSnapshot s.waiting s.data

/-- **The list of all machines shows the machines.** The cards that the page shows are those
of the machines that were registered, each of them once, at some moment since the page was
last built. It shows an error only if a query has failed since then. -/
theorem machines_of_run {zone : Zone} {signedIn : ℕ → Bool} {before : List (App.State × Event)}
    {app : App.State} (hbefore : Run (step zone) (App.State.start signedIn) before app)
    {hist : List (State × Action)} {s : State}
    (hrun : Run (AsyncBuilder.step (system zone)) (start (system zone) () app) hist s)
    (hplain : ∀ e ∈ eventLog zone (served hist ++ before), EthosApp.Event.Plain e) :
    (∀ cards, (view s).cards = some cards →
      ∃ e ∈ since hist, ∃ older, e :: older <:+ hist ∧ (cards.map Controllo.cod).Nodup ∧
        ∀ c, c ∈ cards ↔ ∃ code m, (registryAt zone older before code).machine = some m ∧
          c = m.record code) ∧
    (view s = .errore → ∃ e ∈ since hist, ∃ i, e.2 = .execute i .failure) :=
  shown_at_moment rfl hbefore hrun hplain (fun _ _ => rfl) fun _ _ hrep => hrep.getAllControls

/-- The list is built twice, and the first answer arrives last. -/
def buildTwice : List Action :=
  [.rebuild, .execute 0 .success, .execute 0 .success, .deliver 1, .deliver 0]

/-- The run of the list after that of the two clients. -/
def runBuildTwice : Option (List (State × Action) × State) :=
  exec (AsyncBuilder.step (system (Zone.fixed 3600 Zone.hour_lt_day))) []
    (start (system (Zone.fixed 3600 Zone.hour_lt_day)) ()
      (runTwoClients.get runTwoClients_isSome).2) buildTwice

/-- The actions on the list are possible one after the other. -/
theorem runBuildTwice_isSome : runBuildTwice.isSome := by decide +kernel

/-- The list shows the one machine of the two clients. -/
theorem machines_of_run_buildTwice :
    (view (runBuildTwice.get runBuildTwice_isSome).2).cards.map List.length = some 1 ∧
      ∀ cards, (view (runBuildTwice.get runBuildTwice_isSome).2).cards = some cards →
        ∃ e ∈ since (runBuildTwice.get runBuildTwice_isSome).1, ∃ older,
          e :: older <:+ (runBuildTwice.get runBuildTwice_isSome).1 ∧
          (cards.map Controllo.cod).Nodup ∧
          ∀ c, c ∈ cards ↔ ∃ code m,
            (registryAt (Zone.fixed 3600 Zone.hour_lt_day) older
              (runTwoClients.get runTwoClients_isSome).1 code).machine = some m ∧
            c = m.record code :=
  ⟨by decide +kernel, (machines_of_run (run_get runTwoClients_isSome)
    (run_get runBuildTwice_isSome) (by decide +kernel)).1⟩

end AllControls

end App

end EthosApp
