import EthosApp.App.Refinement
import EthosApp.Store.Editable
import EthosApp.Store.Presence
import EthosApp.Store.UntouchedEdit

/-!
# What the app guarantees

The app inherits what holds of its parts: the readers return the replay of the confirmed
forms of all clients. Nothing that was stored is ever lost, since no screen deletes. Every
machine that is read can be edited as it stands, unless its type is the one that is listed
twice. The remote state is used on behalf of signed-in users only, as long as every logout is
confirmed over a home page that is alone on its stack.
-/

namespace EthosApp

namespace Confirms

/-- A run of plain steps is one whose events are plain. -/
theorem steps_plain_iff {zone : Dart.Zone} {hist : List (State × Action)} :
    Runs.Steps (PlainStep zone) hist ↔ ∀ e ∈ eventLog zone hist, Event.Plain e := by
  simp only [Runs.Steps, PlainStep, eventLog, KeyedLog.log, List.mem_flatMap]
  constructor
  · rintro hplain e ⟨a, ha, he⟩
    exact hplain a ha e he
  · intro hplain a ha e he
    exact hplain e ⟨a, ha, he⟩

end Confirms

/-- Every document and every object of a remote state is still there in another one, with
other contents perhaps. -/
structure Backend.Keeps (b b' : Backend) : Prop where
  /-- The machines are still there. -/
  controlli : ∀ p, (b.controlli.lookup p).isSome → (b'.controlli.lookup p).isSome
  /-- The checks are still there. -/
  registro : ∀ p, (b.registroControlli.lookup p).isSome → (b'.registroControlli.lookup p).isSome
  /-- The sheets are still there. -/
  storage : ∀ object, (b.storage object).isSome → (b'.storage object).isSome

namespace App

open Dart Firestore DocStore Runs

variable {zone : Zone} {signedIn : ℕ → Bool} {hist : List (State × Event)} {s : State}

/-- The remote state represents the replay of the confirmed forms. -/
theorem represents_of_run (hrun : Run (step zone) (State.start signedIn) hist s)
    (hplain : ∀ e ∈ eventLog zone hist, EthosApp.Event.Plain e) :
    Represents zone (Registry.empty.replay (eventLog zone hist)) s.backend := by
  obtain ⟨hist', t, hrep⟩ := exists_represented hrun
  rw [← hrep.log] at hplain ⊢
  rw [← hrep.backend]
  exact Confirms.represents_run hrep.run (Confirms.steps_plain_iff.mpr hplain)

/-- **The readers return the replay of the confirmed forms.** After every run of any number
of clients whose codes are no paths and whose dates have years of four digits, every reader
returns what the registry says after the events of the confirmed forms. -/
theorem readsAs_of_run (hrun : Run (step zone) (State.start signedIn) hist s)
    (hplain : ∀ e ∈ eventLog zone hist, EthosApp.Event.Plain e) :
    ReadsAs zone (Registry.empty.replay (eventLog zone hist)) s.backend :=
  (represents_of_run hrun hplain).readsAs

/-- The readers return the replay of the forms that the two clients confirm. -/
theorem readsAs_of_run_two :
    ReadsAs (Zone.fixed 3600 Zone.hour_lt_day)
      (Registry.empty.replay (eventLog (Zone.fixed 3600 Zone.hour_lt_day)
        (runTwoClients.get runTwoClients_isSome).1))
      (runTwoClients.get runTwoClients_isSome).2.backend :=
  readsAs_of_run (run_get runTwoClients_isSome) (by decide +kernel)

/-! ## Nothing is lost -/

/-- No event of the app removes a machine or a sheet. -/
theorem not_removed {e : String × EthosApp.Event} (he : e ∈ eventLog zone hist) :
    e.2 ≠ .remove ∧ e.2 ≠ .detach := by
  obtain ⟨⟨u, a⟩, _, he⟩ := List.mem_flatMap.mp he
  simp only [events, clientEvents] at he
  split at he
  · split at he
    · unfold formEvents at he
      repeat' split at he
      all_goals
        simp only [List.mem_append, mem_fileEvent, mem_recordEvent, mem_entryEvent,
          List.not_mem_nil] at he
      all_goals grind
    · cases he
  · cases he

/-- What is there after a run was placed by some event. -/
theorem isSome_iff (hrun : Run (step zone) (State.start signedIn) hist s) :
    (∀ p, (s.backend.controlli.lookup p).isSome ↔
      ∃ e ∈ eventLog zone hist, placesMachine p e = some true) ∧
    (∀ p, (s.backend.registroControlli.lookup p).isSome ↔
      ∃ e ∈ eventLog zone hist, placesEntry zone p e = some true) ∧
    ∀ object, (s.backend.storage object).isSome ↔
      ∃ e ∈ eventLog zone hist, placesSheet object e = some true := by
  obtain ⟨hist', t, hrep⟩ := exists_represented hrun
  have hplaces := Confirms.places_of_run hrep.run
  rw [hrep.log, hrep.backend] at hplaces
  obtain ⟨hcontrolli, hregistro, hstorage⟩ := hplaces.isSome_iff
  refine ⟨?_, ?_, ?_⟩
  · intro p
    rw [hcontrolli, findSome?_eq_some_true]
    exact fun e he hgone => (not_removed he).1 (eq_remove_of_placesMachine hgone)
  · intro p
    rw [hregistro, findSome?_eq_some_true]
    exact fun e _ => placesEntry_ne_false zone p e
  · intro object
    rw [hstorage, findSome?_eq_some_true]
    exact fun e he hgone => (not_removed he).2 (eq_detach_of_placesSheet hgone)

/-- What is there after a run is there after every longer one. -/
theorem keeps_of_suffix {older : List (State × Event)} {u : State}
    (hbefore : Run (step zone) (State.start signedIn) older u)
    (hrun : Run (step zone) (State.start signedIn) hist s) (holder : older <:+ hist) :
    u.backend.Keeps s.backend := by
  obtain ⟨hcontrolli, hregistro, hstorage⟩ := isSome_iff hrun
  obtain ⟨hcontrolli', hregistro', hstorage'⟩ := isSome_iff hbefore
  have hlog : ∀ e ∈ eventLog zone older, e ∈ eventLog zone hist := by
    intro e he
    obtain ⟨x, hx, he⟩ := List.mem_flatMap.mp he
    exact List.mem_flatMap.mpr ⟨x, holder.subset hx, he⟩
  refine ⟨fun p hp => ?_, fun p hp => ?_, fun object hobject => ?_⟩
  · obtain ⟨e, he, hplaced⟩ := (hcontrolli' p).mp hp
    exact (hcontrolli p).mpr ⟨e, hlog e he, hplaced⟩
  · obtain ⟨e, he, hplaced⟩ := (hregistro' p).mp hp
    exact (hregistro p).mpr ⟨e, hlog e he, hplaced⟩
  · obtain ⟨e, he, hplaced⟩ := (hstorage' object).mp hobject
    exact (hstorage object).mpr ⟨e, hlog e he, hplaced⟩

/-- **Nothing is lost.** Whatever the clients do and the server answers, a machine, a check or
a sheet that is stored in a state that a run visits is still stored at its end. -/
theorem keeps_of_run (hrun : Run (step zone) (State.start signedIn) hist s) :
    Always (fun u => u.backend.Keeps s.backend) hist s := by
  refine ⟨keeps_of_suffix hrun hrun List.suffix_rfl, ?_⟩
  intro e he
  obtain ⟨older, holder, hbefore⟩ := hrun.before he
  exact keeps_of_suffix hbefore hrun ((List.suffix_cons e older).trans holder)

/-- What the two clients store stays stored. -/
theorem keeps_of_run_two :
    Always (fun u => u.backend.Keeps (runTwoClients.get runTwoClients_isSome).2.backend)
      (runTwoClients.get runTwoClients_isSome).1 (runTwoClients.get runTwoClients_isSome).2 :=
  keeps_of_run (run_get runTwoClients_isSome)

/-! ## Every machine can be edited -/

/-- **Every machine can be edited as it stands.** Whatever machine is read after a run of any
number of clients, the Edit form shows its two dates, accepts the machine unchanged and would
write back the very record that was read. The dropdowns of the form can be built exactly if the
type of the machine is not the one that is listed twice. -/
theorem editable_of_run (hrun : Run (step zone) (State.start signedIn) hist s)
    (hplain : ∀ e ∈ eventLog zone hist, EthosApp.Event.Plain e) {codice : String} {x : Controllo}
    (hread : getControllo codice s.backend = some x) :
    ∃ f, EditControl.session x [] = some f ∧ f.controllo = some x ∧
      (EditControl.DropdownsBuild x f ↔ x.tipo ≠ compressoreAria) := by
  have hrep := represents_of_run hrun hplain
  obtain ⟨hist', t, hrun', hbackend, _⟩ := exists_represented hrun
  obtain ⟨p, hp, d, hd, hdecode⟩ : ∃ p, docPath codice = some p ∧ ∃ d,
      s.backend.controlli.lookup p = some d ∧ Controllo.fromSnapshot d = some x := by
    simpa only [getControllo, Option.bind_eq_bind, Option.bind_eq_some_iff] using hread
  have hstored : t.backend.controlli.lookup p = some d := by rw [hbackend, hd]
  have hzero : Controllo.fromSnapshot d Hour.zero.text = some x := by rwa [zero_text]
  have hdescrizione : x.descrizione ≠ "" :=
    (Confirms.described_of_run hrun').stored p d hstored Hour.zero x hzero
  have hlisted : x.Listed := (Confirms.listed_of_run hrun').stored p d hstored Hour.zero x hzero
  obtain ⟨code, m, rfl, hm, rfl⟩ := hrep.lookup_iff.mp hd
  obtain ⟨hcode, hyears⟩ := hrep.plain code m hm
  have hx : m.record code = x :=
    Option.some.inj ((Machine.holds hyears).fromSnapshot_default.symm.trans hdecode)
  subst hx
  have hcod : (m.record code).cod ≠ "" := by
    rintro hempty
    rw [Machine.record_cod] at hempty
    subst hempty
    cases hcode
  obtain ⟨f, hf, hunchanged⟩ :=
    UntouchedEdit.exists_form hcod hyears hdescrizione (by simp [Machine.record])
  obtain ⟨f₀, hinit, hrun₀, _⟩ := EditControl.session_eq_some.mp hf
  obtain rfl : f₀ = f := Option.some.inj hrun₀
  exact ⟨f₀, hf, hunchanged, EditControl.dropdownsBuild_initState hlisted hinit⟩

/-- The machine that one of the two clients registers. -/
def machineTwo : Controllo :=
  (getControllo "M1" (runTwoClients.get runTwoClients_isSome).2.backend).get (by decide +kernel)

/-- It can be edited, in a form whose dropdowns can be built. -/
theorem editable_of_run_two : ∃ f, EditControl.session machineTwo [] = some f ∧
    f.controllo = some machineTwo ∧ EditControl.DropdownsBuild machineTwo f := by
  have hread : getControllo "M1" (runTwoClients.get runTwoClients_isSome).2.backend =
      some machineTwo := (Option.some_get _).symm
  obtain ⟨f, hf, hunchanged, hdropdowns⟩ :=
    editable_of_run (run_get runTwoClients_isSome) (by decide +kernel) hread
  exact ⟨f, hf, hunchanged, hdropdowns.mpr (by decide +kernel)⟩

/-! ## Who uses the remote state -/

/-- A logout is confirmed over a home page that is the only page of the client's stack. -/
def LogoutAlone (s : State) (e : Event) : Prop :=
  e.action = .logout → (s.clients e.client).navigation.stack = [.logoutDialog, .home]

/-- The stack of every client is safe. -/
def Safe (s : State) : Prop := ∀ i, (s.clients i).navigation.Safe

/-- An action that reads or writes the remote state. -/
def Action.isRemote : Action → Bool
  | .carica _ _ => true
  | .cerca _ => true
  | .inquadra _ _ => true
  | .presente _ => true
  | .conferma _ _ => true
  | _ => false

/-- The actions on the stack of routes keep its invariant. -/
theorem inv_fold {nas : List Navigation.Action} {n n' : Navigation.State}
    (hfold : nas.foldlM Navigation.step n = some n') (hn : Navigation.Inv n) :
    Navigation.Inv n' :=
  foldlM_invariant (fun _ _ _ _ hm hstep => Navigation.inv_step hm hstep) hfold hn

/-- Actions on the stack of routes without a logout keep a stack safe. -/
theorem safe_fold {nas : List Navigation.Action} {n n' : Navigation.State}
    (hfold : nas.foldlM Navigation.step n = some n') (hn : Navigation.Inv n) (hsafe : n.Safe)
    (hnas : .logout ∉ nas) : n'.Safe := by
  refine (foldlM_invariant (I := fun m => Navigation.Inv m ∧ m.Safe) ?_ hfold ⟨hn, hsafe⟩).2
  rintro m na m' hna ⟨hm, hmsafe⟩ hstep
  refine ⟨Navigation.inv_step hm hstep, (Navigation.safe_step_iff hm hmsafe hstep).mpr ?_⟩
  rintro rfl
  exact absurd hna hnas

/-- A step leads a safe client to a safe one exactly if it is no logout over other pages. -/
theorem Moves.safe_iff {c c' : Client} {a : Action} {nas : List Navigation.Action}
    (hmoves : Moves c a c' nas) (hc : Navigation.Inv c.navigation) (hsafe : c.navigation.Safe) :
    c'.navigation.Safe ↔ (a = .logout → c.navigation.stack = [.logoutDialog, .home]) := by
  by_cases ha : a = .logout
  · have hfold := hmoves.fold
    rw [hmoves.logout ha] at hfold
    obtain ⟨n, hstep, hn⟩ := Option.bind_eq_some_iff.mp hfold
    cases hn
    rw [Navigation.safe_step_iff hc hsafe hstep]
    simp [Navigation.LogoutAlone, ha]
  · refine iff_of_true ?_ fun h => absurd h ha
    exact safe_fold hmoves.fold hc hsafe (hmoves.notLogout ha)

/-- What every reachable state satisfies: the stack of every client is well formed. -/
def Inv (s : State) : Prop := ∀ i, Navigation.Inv (s.clients i).navigation

/-- Every step keeps the invariant. -/
theorem inv_step {s t : State} {e : Event} (hs : Inv s) (hstep : step zone s e = some t) :
    Inv t := by
  intro i
  obtain ⟨r, hr, rfl⟩ := Option.map_eq_some_iff.mp hstep
  obtain ⟨nas, hmoves⟩ := (clientStep_spec hr).moves
  by_cases hi : i = e.client
  · subst hi
    dsimp only
    rw [Function.update_self]
    exact inv_fold hmoves.fold (hs e.client)
  · dsimp only
    rw [Function.update_of_ne hi]
    exact hs i

/-- A step from a safe state leads to a safe state exactly if it is no logout over other
pages. -/
theorem safe_step_iff {s t : State} {e : Event} (hs : Inv s) (hsafe : Safe s)
    (hstep : step zone s e = some t) : Safe t ↔ LogoutAlone s e := by
  obtain ⟨r, hr, rfl⟩ := Option.map_eq_some_iff.mp hstep
  obtain ⟨nas, hmoves⟩ := (clientStep_spec hr).moves
  have hclient : r.1.navigation.Safe ↔ LogoutAlone s e :=
    hmoves.safe_iff (hs e.client) (hsafe e.client)
  rw [← hclient]
  constructor
  · intro hafter
    simpa using hafter e.client
  · intro hafter i
    by_cases hi : i = e.client
    · subst hi
      simpa using hafter
    · simpa [Function.update_of_ne hi] using hsafe i

/-- The page that offers an action on the remote state is one of a session. -/
theorem protected_of_handle {now : DateTime} {b : Backend} {c : Client} {p : Page} {a : Action}
    {r : Client × Backend} (h : handle zone now b c p a = some r) (ha : a.isRemote = true) :
    p.route.Protected := by
  unfold handle at h
  split at h
  -- the lines for other actions, and the pages of the lines that remain
  all_goals first
    | exact absurd ha (by decide)
    | exact ⟨by rintro ⟨⟩, by rintro ⟨⟩⟩
    | cases h

/-- A client whose action uses the remote state has a page of a session. -/
theorem exists_protected {now : DateTime} {b : Backend} {c : Client} {a : Action}
    {r : Client × Backend} (h : clientStep zone now b c a = some r) (ha : a.isRemote = true) :
    ∃ route ∈ c.navigation.stack, route.Protected := by
  have htop : ∀ {a}, (c.stack.head?.bind fun p => handle zone now b c p a) = some r →
      a.isRemote = true → ∃ route ∈ c.navigation.stack, route.Protected := by
    intro a h ha
    obtain ⟨p, hp, hhandle⟩ := Option.bind_eq_some_iff.mp h
    exact ⟨p.route, List.mem_map_of_mem (List.mem_of_head? hp), protected_of_handle hhandle ha⟩
  unfold clientStep at h
  split at h
  · obtain ⟨q, hq, rfl⟩ := Option.map_eq_some_iff.mp h
    obtain ⟨p, hp, hload⟩ := Option.bind_eq_some_iff.mp hq
    refine ⟨p.route, List.mem_map_of_mem (List.mem_of_getElem? hp), ?_⟩
    unfold Page.load at hload
    split at hload
    · simp [Page.route, Navigation.Route.Protected]
    · simp [Page.route, Navigation.Route.Protected]
    · cases hload
  · exact htop h ha

/-- **Who uses the remote state.** In every run of any number of clients, no page of a session
is ever on the stack of a signed-out user exactly if every logout is confirmed over a home
page that is alone, and then the remote state is read and written by signed-in users only. -/
theorem always_signedIn (hrun : Run (step zone) (State.start signedIn) hist s) :
    (Always Safe hist s ↔ Steps LogoutAlone hist) ∧
      (Steps LogoutAlone hist → Steps (fun u e => e.action.isRemote = true →
        (u.clients e.client).signedIn = true) hist) := by
  have hsafe : Always Safe hist s ↔ Steps LogoutAlone hist := by
    refine hrun.always_iff Inv (fun i => Navigation.inv_start (signedIn i))
      (fun u e t hu hstep => inv_step hu hstep) ?_ fun u e t hu => safe_step_iff hu
    intro i _ r hr
    rw [List.mem_singleton.mp hr]
    decide
  refine ⟨hsafe, ?_⟩
  intro halone e he hremote
  obtain ⟨t, hstep⟩ := hrun.step_eq_some e he
  obtain ⟨r, hr, _⟩ := Option.map_eq_some_iff.mp hstep
  obtain ⟨route, hmem, hprotected⟩ := exists_protected hr hremote
  by_contra hsignedOut
  have hnavigation : (e.1.clients e.2.client).navigation.signedIn = false := by
    simpa [Client.navigation] using hsignedOut
  exact (hsafe.mpr halone).2 e he e.2.client hnavigation route hmem hprotected

/-- The two clients use the remote state while they are signed in. -/
theorem always_signedIn_two :
    Steps (fun u e => e.action.isRemote = true → (u.clients e.client).signedIn = true)
      (runTwoClients.get runTwoClients_isSome).1 := by
  obtain ⟨_, hsignedIn⟩ := always_signedIn (run_get runTwoClients_isSome)
  have hnone : ∀ e ∈ (runTwoClients.get runTwoClients_isSome).1, e.2.action.nav ≠ .logout := by
    decide +kernel
  refine hsignedIn fun e he hlogout => absurd ?_ (hnone e he)
  rw [hlogout]
  rfl

end App

end EthosApp
