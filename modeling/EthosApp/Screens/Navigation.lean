import EthosApp.Lib.Runs
import Mathlib.Data.List.Chain

/-!
# The navigation stack

Every screen and every dialog is a route on one stack. An action is offered by the top
route, and its handler pushes, replaces or pops routes; a handler that awaits is taken as
one action. Returning to the home page is a pop in some screens and a `pushNamed` in
others, so that the stack grows without bound.
-/

namespace EthosApp

namespace Navigation

open Runs

/-- The routes of the app: its screens, its dialogs, and the pickers and menus of the
fields. -/
inductive Route
  | splash
  | login
  | home
  | logoutDialog
  | add
  | searchDialog
  | unregisteredMachineAlert
  | qrCode
  | allControls
  | controlView
  | editDialog
  | checkDialog
  | editControl
  | controlCheck
  | saveDialog
  | exitDialog
  | picker
  deriving DecidableEq

/-- A route of a signed-in session: every screen and dialog but the splash screen and
the login page. -/
def Route.Protected (r : Route) : Prop := r ≠ .splash ∧ r ≠ .login

instance (r : Route) : Decidable r.Protected := inferInstanceAs (Decidable (_ ∧ _))

/-- An operation of the navigator. -/
inductive Move
  | push (r : Route)
  | pushReplacement (r : Route)
  | pop

/-- The stack after an operation, top first. The last route is not popped: the app is
left instead. -/
def Move.apply : List Route → Move → Option (List Route)
  | rs, .push r => some (r :: rs)
  | _ :: rs, .pushReplacement r => some (r :: rs)
  | _ :: r :: rs, .pop => some (r :: rs)
  | _, _ => none

/-- What the user or the app can do. -/
inductive Action
  /-- The delay of the splash screen ends. -/
  | goToNextPage
  /-- The login page signs the user in. -/
  | entra
  /-- The logout icon of the home page. -/
  | logoutIcon
  /-- The logout dialog is confirmed. -/
  | logout
  /-- The entries of the speed dial of the home page. -/
  | aggiungi
  | cercaConCodice
  | scanner
  | esitoControlli
  | macchineRegistrate
  /-- The button of a `ControlCard`. -/
  | mostraRiepilogo
  /-- A code was entered or scanned, and a machine may be registered under it. -/
  | cerca (presente : Bool)
  /-- The offer to register an unknown machine is accepted. -/
  | si
  /-- The two buttons of a `ControlView`. -/
  | modifica
  | effettuaControllo
  /-- The buttons of the forms: saving, the camera, and a field with a picker. -/
  | salva
  | fotocamera
  | picker
  /-- A dialog is confirmed. -/
  | conferma
  /-- The dialog that asks whether to discard the changes is confirmed. -/
  | esci
  /-- The leading button of the app bar. -/
  | backButton
  /-- The system's back button, the dismissal of a dialog, or its `Annulla`. -/
  | back
  deriving DecidableEq

open Route Navigation.Action Move in
/-- What the top route does with an action that it offers. -/
def handler (signedIn : Bool) : Route → Action → Option (List Move)
  | splash, goToNextPage => some [pushReplacement (if signedIn then home else login)]
  | login, entra => some [pushReplacement home]
  | login, back => some [pop]
  | home, logoutIcon => some [push logoutDialog]
  | home, aggiungi => some [push add]
  | home, cercaConCodice => some [push searchDialog]
  | home, scanner => some [push qrCode]
  | home, esitoControlli => some [push Route.picker]
  | home, macchineRegistrate => some [push allControls]
  | home, mostraRiepilogo => some [push controlView]
  | home, back => some [pop]
  | logoutDialog, logout => some [pop, pushReplacement login]
  | logoutDialog, back => some [pop]
  | searchDialog, cerca true => some [push controlView]
  | searchDialog, cerca false => some [push unregisteredMachineAlert]
  | searchDialog, back => some [pop]
  | unregisteredMachineAlert, si => some [pushReplacement add]
  | unregisteredMachineAlert, back => some [pop]
  | qrCode, cerca true => some [pushReplacement controlView]
  | qrCode, cerca false => some [push unregisteredMachineAlert]
  | qrCode, backButton => some [pop]
  | qrCode, back => some [pop]
  | allControls, mostraRiepilogo => some [push controlView]
  | allControls, backButton => some [push home]
  | allControls, back => some [pop]
  | controlView, modifica => some [push editDialog]
  | controlView, effettuaControllo => some [push checkDialog]
  | controlView, backButton => some [pop]
  | controlView, back => some [pop]
  | editDialog, conferma => some [pushReplacement editControl]
  | editDialog, back => some [pop]
  | checkDialog, conferma => some [pushReplacement controlCheck]
  | checkDialog, back => some [pop]
  | add, fotocamera => some [pushReplacement qrCode]
  | add, Action.picker => some [push Route.picker]
  | add, salva => some [push saveDialog]
  | add, backButton => some [push exitDialog]
  | add, back => some [push exitDialog]
  | editControl, fotocamera => some [pushReplacement qrCode]
  | editControl, Action.picker => some [push Route.picker]
  | editControl, salva => some [push saveDialog]
  | editControl, backButton => some [push exitDialog]
  | editControl, back => some [push exitDialog]
  | controlCheck, Action.picker => some [push Route.picker]
  | controlCheck, salva => some [push saveDialog]
  | controlCheck, backButton => some [pop]
  | controlCheck, back => some [push exitDialog]
  | saveDialog, conferma => some [push home]
  | saveDialog, back => some [pop]
  | exitDialog, esci => some [pop, pop]
  | exitDialog, back => some [pop]
  | Route.picker, back => some [pop]
  | _, _ => none

/-- Whether a user is signed in after an action. -/
def signedInAfter (signedIn : Bool) : Action → Bool
  | .entra => true
  | .logout => false
  | _ => signedIn

/-- The stack of routes, top first, and whether a user is signed in. -/
structure State where
  /-- The routes, top first. -/
  stack : List Route
  /-- Whether a user is signed in. -/
  signedIn : Bool
  deriving DecidableEq

/-- The app as it is launched, with the user of the last launch. -/
def State.start (signedIn : Bool) : State := ⟨[.splash], signedIn⟩

/-- One action. -/
def step (s : State) (a : Action) : Option State := do
  let top ← s.stack.head?
  let moves ← handler s.signedIn top a
  let stack ← moves.foldlM Move.apply s.stack
  return ⟨stack, signedInAfter s.signedIn a⟩

/-- No route of a signed-in session is on the stack of a signed-out user. -/
def State.Safe (s : State) : Prop := s.signedIn = false → ∀ r ∈ s.stack, ¬ r.Protected

instance (s : State) : Decidable s.Safe := inferInstanceAs (Decidable (_ → _))

/-- A logout is confirmed over a home page that is the only page of the stack. -/
def LogoutAlone (s : State) (a : Action) : Prop := a = .logout → s.stack = [.logoutDialog, .home]

instance (s : State) (a : Action) : Decidable (LogoutAlone s a) :=
  inferInstanceAs (Decidable (_ → _))

/-! ## What a step does -/

/-- What the handlers do, in the seven ways that matter to the stack. -/
inductive StepSpec : State → Action → State → Prop
  /-- A route of a session opens another. Only the home page opens the logout dialog. -/
  | push {top : Route} {rest : List Route} {signedIn : Bool} {a : Action} (r : Route)
      (haction : a ≠ .logout) (htop : top.Protected) (hlogout : r = .logoutDialog → top = .home) :
      StepSpec ⟨top :: rest, signedIn⟩ a ⟨r :: top :: rest, signedIn⟩
  /-- A route of a session, but not the home page, is replaced. -/
  | replace {top : Route} {rest : List Route} {signedIn : Bool} {a : Action} (r : Route)
      (haction : a ≠ .logout) (htop : top.Protected) (hhome : top ≠ .home)
      (hlogout : r ≠ .logoutDialog) :
      StepSpec ⟨top :: rest, signedIn⟩ a ⟨r :: rest, signedIn⟩
  /-- One route is closed. -/
  | pop {top : Route} {rest : List Route} {signedIn : Bool} {a : Action} (haction : a ≠ .logout)
      (hrest : rest ≠ []) : StepSpec ⟨top :: rest, signedIn⟩ a ⟨rest, signedIn⟩
  /-- A dialog is closed together with the form under it. -/
  | popTwice {top form : Route} {rest : List Route} {signedIn : Bool} {a : Action}
      (haction : a ≠ .logout) (hrest : rest ≠ []) :
      StepSpec ⟨top :: form :: rest, signedIn⟩ a ⟨rest, signedIn⟩
  /-- The splash screen goes to the page of the user. -/
  | goToNextPage {rest : List Route} {signedIn : Bool} :
      StepSpec ⟨.splash :: rest, signedIn⟩ .goToNextPage
        ⟨(if signedIn then .home else .login) :: rest, signedIn⟩
  /-- The user signs in. -/
  | entra {rest : List Route} {signedIn : Bool} :
      StepSpec ⟨.login :: rest, signedIn⟩ .entra ⟨.home :: rest, true⟩
  /-- The user signs out. -/
  | logout {below : Route} {rest : List Route} {signedIn : Bool} :
      StepSpec ⟨.logoutDialog :: below :: rest, signedIn⟩ .logout ⟨.login :: rest, false⟩

/-- A popped stack is what lay under its top route. -/
theorem pop_eq_some {top : Route} {rest stack : List Route}
    (h : [Move.pop].foldlM Move.apply (top :: rest) = some stack) : stack = rest ∧ rest ≠ [] := by
  cases rest with
  | nil => cases h
  | cons r rest =>
    cases h
    exact ⟨rfl, by simp⟩

/-- Further moves of a handler start from the popped stack. -/
theorem pop_andThen {m : Move} {top : Route} {rest stack : List Route}
    (h : [Move.pop, m].foldlM Move.apply (top :: rest) = some stack) :
    ∃ below rest', rest = below :: rest' ∧ [m].foldlM Move.apply rest = some stack := by
  cases rest with
  | nil => cases h
  | cons below rest' => exact ⟨below, rest', rfl, h⟩

/-- **What a step does.** Every step acts in one of the seven ways. -/
theorem step_spec {s t : State} {a : Action} (h : step s a = some t) : StepSpec s a t := by
  obtain ⟨stack, signedIn⟩ := s
  simp only [step, Option.bind_eq_bind, Option.bind_eq_some_iff, Option.pure_def,
    Option.some.injEq, List.head?_eq_some_iff] at h
  obtain ⟨top, ⟨rest, rfl⟩, moves, hmoves, stack, hfold, rfl⟩ := h
  unfold handler at hmoves
  -- one case for every line of the handler
  split at hmoves <;> cases hmoves
  all_goals first
    | cases hfold
      exact .push _ (by decide) (by decide) (by decide)
    | cases hfold
      exact .replace _ (by decide) (by decide) (by decide) (by decide)
    | cases hfold
      exact .goToNextPage
    | cases hfold
      exact .entra
    | obtain ⟨rfl, hrest⟩ := pop_eq_some hfold
      exact .pop (by decide) hrest
    | obtain ⟨below, rest', rfl, hlast⟩ := pop_andThen hfold
      cases hlast
      exact .logout
    | obtain ⟨below, rest', rfl, hlast⟩ := pop_andThen hfold
      obtain ⟨rfl, hrest⟩ := pop_eq_some hlast
      exact .popTwice (by decide) hrest

/-! ## The invariant -/

/-- What every reachable stack satisfies: the logout dialog lies on the home page, and a
stack of several routes has the home page at its bottom. -/
structure Inv (s : State) : Prop where
  /-- The logout dialog lies on the home page. -/
  logoutDialog : s.stack.IsChain fun upper lower => upper = .logoutDialog → lower = .home
  /-- At the bottom lies the home page, unless there is nothing else. -/
  bottom : s.stack = [.splash] ∨ s.stack = [.login] ∨ s.stack.getLast? = some .home

/-- The app is launched with the splash screen only. -/
theorem inv_start (signedIn : Bool) : Inv (State.start signedIn) :=
  ⟨by simp [State.start], Or.inl rfl⟩

/-- Routes that lie under another have the home page at the bottom. -/
theorem Inv.getLast_rest {top : Route} {rest : List Route} {signedIn : Bool}
    (hs : Inv ⟨top :: rest, signedIn⟩) (hrest : rest ≠ []) : rest.getLast? = some .home := by
  obtain ⟨r, rest, rfl⟩ := List.exists_cons_of_ne_nil hrest
  rcases hs.bottom with hsplash | hlogin | hhome
  · cases hsplash
  · cases hlogin
  · rwa [List.getLast?_cons_cons] at hhome

/-- A route can be opened, and the logout dialog can be opened on the home page. -/
theorem Inv.push {top r : Route} {rest : List Route} {signedIn : Bool}
    (hs : Inv ⟨top :: rest, signedIn⟩) (htop : top.Protected)
    (hlogout : r = .logoutDialog → top = .home) : Inv ⟨r :: top :: rest, signedIn⟩ := by
  constructor
  · exact List.isChain_cons_cons.mpr ⟨hlogout, hs.logoutDialog⟩
  · right; right
    rw [List.getLast?_cons_cons]
    rcases hs.bottom with hsplash | hlogin | hhome
    · cases hsplash
      exact absurd rfl htop.1
    · cases hlogin
      exact absurd rfl htop.2
    · exact hhome

/-- The top route can be replaced, at the bottom by one of the first pages only. -/
theorem Inv.replace {top r : Route} {rest : List Route} {signedIn signedIn' : Bool}
    (hs : Inv ⟨top :: rest, signedIn⟩) (hlogout : r ≠ .logoutDialog)
    (hbottom : rest = [] → r = .login ∨ r = .home) : Inv ⟨r :: rest, signedIn'⟩ := by
  constructor
  · exact List.isChain_cons.mpr ⟨fun _ _ h => absurd h hlogout, (List.isChain_cons.mp hs.1).2⟩
  · cases rest with
    | nil => rcases hbottom rfl with rfl | rfl <;> simp
    | cons below rest =>
      have hlast := hs.getLast_rest (by simp)
      exact Or.inr (Or.inr (by rwa [List.getLast?_cons_cons]))

/-- The top route can be closed if it lies on another. -/
theorem Inv.pop {top : Route} {rest : List Route} {signedIn : Bool}
    (hs : Inv ⟨top :: rest, signedIn⟩) (hrest : rest ≠ []) : Inv ⟨rest, signedIn⟩ :=
  ⟨(List.isChain_cons.mp hs.1).2, Or.inr (Or.inr (hs.getLast_rest hrest))⟩

/-- Every step keeps the invariant. -/
theorem inv_step {s t : State} {a : Action} (hs : Inv s) (hstep : step s a = some t) : Inv t := by
  cases step_spec hstep with
  | push r _ htop hlogout => exact hs.push htop hlogout
  | replace r _ htop hhome hlogout =>
    refine hs.replace hlogout ?_
    rintro rfl
    -- a route of a session that lies on nothing is the home page
    rcases hs.bottom with hsplash | hlogin | hbottom
    · cases hsplash
      exact absurd rfl htop.1
    · cases hlogin
      exact absurd rfl htop.2
    · exact absurd (Option.some.inj hbottom) hhome
  | pop _ hrest => exact hs.pop hrest
  | popTwice _ hrest => exact (hs.pop (by simp)).pop hrest
  | goToNextPage =>
    rename_i rest signedIn
    cases signedIn
    · exact hs.replace (by decide) fun _ => Or.inl rfl
    · exact hs.replace (by decide) fun _ => Or.inr rfl
  | entra => exact hs.replace (by decide) fun _ => Or.inr rfl
  | logout =>
    rename_i below rest signedIn
    cases rest with
    | nil => exact ⟨by simp, Or.inr (Or.inl rfl)⟩
    | cons r rest => exact (hs.pop (by simp)).replace (by decide) (by simp)

/-! ## Logging out -/

/-- A logout leaves no route of the session behind exactly if the home page was alone. -/
theorem safe_logout_iff {below : Route} {rest : List Route} {signedIn : Bool}
    (hs : Inv ⟨.logoutDialog :: below :: rest, signedIn⟩) :
    State.Safe ⟨.login :: rest, false⟩ ↔
      LogoutAlone ⟨.logoutDialog :: below :: rest, signedIn⟩ .logout := by
  obtain rfl : below = .home := (List.isChain_cons_cons.mp hs.logoutDialog).1 rfl
  have hiff : LogoutAlone ⟨.logoutDialog :: .home :: rest, signedIn⟩ .logout ↔ rest = [] := by
    simp [LogoutAlone]
  rw [hiff]
  constructor
  · intro hsafe
    by_contra hrest
    have hlast := (hs.pop (by simp)).getLast_rest hrest
    exact hsafe rfl .home (List.mem_cons_of_mem _ (List.mem_of_getLast? hlast)) (by decide)
  · rintro rfl
    decide

/-- A step from a safe state leads to a safe state exactly if it is no logout over other
routes of the session. -/
theorem safe_step_iff {s t : State} {a : Action} (hs : Inv s) (hsafe : s.Safe)
    (hstep : step s a = some t) : t.Safe ↔ LogoutAlone s a := by
  cases step_spec hstep with
  | push r haction htop hlogout =>
    refine iff_of_true ?_ fun h => absurd h haction
    intro hsignedIn
    exact absurd htop (hsafe hsignedIn _ List.mem_cons_self)
  | replace r haction htop hhome hlogout =>
    refine iff_of_true ?_ fun h => absurd h haction
    intro hsignedIn
    exact absurd htop (hsafe hsignedIn _ List.mem_cons_self)
  | pop haction hrest =>
    refine iff_of_true ?_ fun h => absurd h haction
    intro hsignedIn r hr
    exact hsafe hsignedIn r (List.mem_cons_of_mem _ hr)
  | popTwice haction hrest =>
    refine iff_of_true ?_ fun h => absurd h haction
    intro hsignedIn r hr
    exact hsafe hsignedIn r (List.mem_cons_of_mem _ (List.mem_cons_of_mem _ hr))
  | goToNextPage =>
    refine iff_of_true ?_ fun h => by cases h
    rintro hsignedIn r hr
    dsimp only at hsignedIn
    subst hsignedIn
    rcases List.mem_cons.mp hr with rfl | hr
    · decide
    · exact hsafe rfl r (List.mem_cons_of_mem _ hr)
  | entra =>
    refine iff_of_true ?_ fun h => by cases h
    intro hsignedIn
    cases hsignedIn
  | logout => exact safe_logout_iff hs

/-- **When logging out is safe.** In every run from the launch of the app, no route of a
signed-in session is ever on the stack of a signed-out user exactly if every logout is
confirmed over a home page that is the only page of the stack. -/
theorem always_safe_iff {signedIn : Bool} {hist : List (State × Action)} {t : State}
    (hrun : Run step (State.start signedIn) hist t) :
    Always State.Safe hist t ↔ Steps LogoutAlone hist := by
  refine hrun.always_iff Inv (inv_start signedIn) (fun s a t hs hstep => inv_step hs hstep) ?_ ?_
  · intro _ r hr
    rw [List.mem_singleton.mp hr]
    decide
  · intro s a t hs hsafe hstep
    exact safe_step_iff hs hsafe hstep

/-- The machines are listed and the user returns with the system's back button. -/
def listThenBack : List Action :=
  [.goToNextPage, .macchineRegistrate, .back, .logoutIcon, .logout]

/-- The machines are listed and the user returns with the back button of the page. -/
def listThenBackButton : List Action :=
  [.goToNextPage, .macchineRegistrate, .backButton, .logoutIcon, .logout]

/-- No page of the session is left after returning with the system's back button. -/
theorem always_safe_iff_listThenBack :
    Always State.Safe ((exec step [] (State.start true) listThenBack).get (by decide)).1
      ((exec step [] (State.start true) listThenBack).get (by decide)).2 :=
  (always_safe_iff (run_get (by decide))).mpr (by unfold Steps; decide)

/-- After returning with the back button of the page, the list and the older home page
lie under the login page, and the system's back button shows the list. -/
theorem logout_unsafe_listThenBackButton :
    (exec step [] (State.start true) listThenBackButton).map Prod.snd =
        some ⟨[.login, .allControls, .home], false⟩ ∧
      (exec step [] (State.start true) (listThenBackButton ++ [.back])).map Prod.snd =
        some ⟨[.allControls, .home], false⟩ ∧
      ¬ State.Safe ⟨[.login, .allControls, .home], false⟩ := by
  decide

end Navigation

end EthosApp
