import EthosApp.Lib.Reachability
import EthosApp.Screens.Navigation

/-!
# The reachable stacks

Which route can lie on which other one is a finite relation, and a stack is reachable
exactly if each of its routes can lie on the one below, with the home page at the bottom.
Every route can be closed again, so that the app has no dead end: after the splash screen
each reachable stack can be reached from every other one.
-/

namespace EthosApp

namespace Navigation

open Runs

open Route Navigation.Action in
/-- The actions that lead from a route to one on top of it, for the routes that can lie on
each other. -/
def opens (upper lower : Route) : Option (List Action) :=
  match lower, upper with
  | home, logoutDialog => some [logoutIcon]
  | home, add => some [aggiungi]
  | home, searchDialog => some [cercaConCodice]
  | home, qrCode => some [scanner]
  | home, Route.picker => some [esitoControlli]
  | home, allControls => some [macchineRegistrate]
  | home, controlView => some [mostraRiepilogo]
  | searchDialog, controlView => some [cerca true]
  | searchDialog, unregisteredMachineAlert => some [cerca false]
  | searchDialog, add => some [cerca false, si]
  | searchDialog, qrCode => some [cerca false, si, fotocamera]
  | qrCode, unregisteredMachineAlert => some [cerca false]
  | qrCode, add => some [cerca false, si]
  | qrCode, qrCode => some [cerca false, si, fotocamera]
  | qrCode, controlView => some [cerca false, si, fotocamera, cerca true]
  | allControls, controlView => some [mostraRiepilogo]
  | allControls, home => some [backButton]
  | allControls, login => some [backButton, logoutIcon, logout]
  | controlView, editDialog => some [modifica]
  | controlView, checkDialog => some [effettuaControllo]
  | controlView, editControl => some [modifica, conferma]
  | controlView, controlCheck => some [effettuaControllo, conferma]
  | controlView, qrCode => some [modifica, conferma, fotocamera]
  | controlView, controlView => some [modifica, conferma, fotocamera, cerca true]
  | add, Route.picker => some [Action.picker]
  | add, saveDialog => some [salva]
  | add, exitDialog => some [back]
  | editControl, Route.picker => some [Action.picker]
  | editControl, saveDialog => some [salva]
  | editControl, exitDialog => some [back]
  | controlCheck, Route.picker => some [Action.picker]
  | controlCheck, saveDialog => some [salva]
  | controlCheck, exitDialog => some [back]
  | saveDialog, home => some [conferma]
  | saveDialog, login => some [conferma, logoutIcon, logout]
  | _, _ => none

/-- One route can lie on another. -/
def On (upper lower : Route) : Prop := (opens upper lower).isSome

instance (upper lower : Route) : Decidable (On upper lower) := inferInstanceAs (Decidable (_ = _))

open Route Navigation.Action in
/-- The actions that close a route which lies on another. -/
def closes : Route → List Action
  | add => [back, esci]
  | editControl => [back, esci]
  | controlCheck => [backButton]
  | _ => [back]

/-- A stack after the splash screen: each route can lie on the one below, with the home
page at the bottom unless there is only the login page. Nobody is signed in under a login
page. -/
structure WellFormed (s : State) : Prop where
  /-- Each route can lie on the one below. -/
  chain : s.stack.IsChain On
  /-- The home page is at the bottom, unless there is only the login page. -/
  bottom : s.stack.getLast? = some .home ∨ s.stack = [.login]
  /-- Nobody is signed in under a login page. -/
  login : .login ∈ s.stack → s.signedIn = false

/-! ## Every step keeps a well-formed stack -/

/-- Routes that lie under another have the home page at the bottom. -/
theorem WellFormed.getLast_rest {top : Route} {rest : List Route} {signedIn : Bool}
    (hs : WellFormed ⟨top :: rest, signedIn⟩) (hrest : rest ≠ []) :
    rest.getLast? = some .home := by
  obtain ⟨r, rest, rfl⟩ := List.exists_cons_of_ne_nil hrest
  rcases hs.bottom with hhome | hlogin
  · rwa [List.getLast?_cons_cons] at hhome
  · cases hlogin

/-- Nothing lies on a login page, and the splash screen lies on nothing. -/
theorem On.ne {upper lower : Route} (hon : On upper lower) :
    upper ≠ .splash ∧ lower ≠ .login := by
  revert hon
  cases lower <;> cases upper <;> decide

/-- A login page is on the top. -/
theorem login_notMem {top : Route} {rest : List Route} (hchain : (top :: rest).IsChain On) :
    .login ∉ rest := by
  induction rest generalizing top with
  | nil => simp
  | cons r rest ih =>
    obtain ⟨hon, hrest⟩ := List.isChain_cons_cons.mp hchain
    rw [List.mem_cons, not_or]
    exact ⟨hon.ne.2.symm, ih hrest⟩

/-- A route is opened. -/
theorem WellFormed.push {top r : Route} {rest : List Route} {signedIn : Bool}
    (hs : WellFormed ⟨top :: rest, signedIn⟩) (hon : On r top) (hr : r ≠ .login) :
    WellFormed ⟨r :: top :: rest, signedIn⟩ := by
  constructor
  · exact List.isChain_cons_cons.mpr ⟨hon, hs.chain⟩
  · left
    rw [List.getLast?_cons_cons]
    refine hs.bottom.resolve_right ?_
    intro hlogin
    cases hlogin
    exact hon.ne.2 rfl
  · intro hlogin
    rcases List.mem_cons.mp hlogin with hlogin | hlogin
    · exact absurd hlogin.symm hr
    · exact hs.login hlogin

/-- A route is replaced by one that can lie on the same routes. -/
theorem WellFormed.replace {top r : Route} {rest : List Route} {signedIn signedIn' : Bool}
    (hs : WellFormed ⟨top :: rest, signedIn⟩) (hon : ∀ lower, On top lower → On r lower)
    (hbottom : rest = [] → r = .home ∨ r = .login) (hlogin : r = .login → signedIn' = false) :
    WellFormed ⟨r :: rest, signedIn'⟩ := by
  constructor
  · cases rest with
    | nil => exact List.isChain_singleton r
    | cons lower rest =>
      obtain ⟨htop, hrest⟩ := List.isChain_cons_cons.mp hs.chain
      exact List.isChain_cons_cons.mpr ⟨hon lower htop, hrest⟩
  · cases rest with
    | nil => rcases hbottom rfl with rfl | rfl <;> simp
    | cons lower rest =>
      left
      rw [List.getLast?_cons_cons]
      exact hs.getLast_rest (by simp)
  · intro hmem
    rcases List.mem_cons.mp hmem with hmem | hmem
    · exact hlogin hmem.symm
    · exact absurd hmem (login_notMem hs.chain)

/-- A route of a session is replaced by another. -/
theorem WellFormed.replaceProtected {top r : Route} {rest : List Route} {signedIn : Bool}
    (hs : WellFormed ⟨top :: rest, signedIn⟩) (hon : ∀ lower, On top lower → On r lower)
    (htop : top ≠ .home ∧ top ≠ .login) (hr : r ≠ .login) : WellFormed ⟨r :: rest, signedIn⟩ := by
  refine hs.replace hon ?_ fun hlogin => absurd hlogin hr
  rintro rfl
  rcases hs.bottom with hhome | hlogin
  · exact absurd (Option.some.inj hhome) htop.1
  · cases hlogin
    exact absurd rfl htop.2

/-- A route that lies on another is closed. -/
theorem WellFormed.pop {top : Route} {rest : List Route} {signedIn : Bool}
    (hs : WellFormed ⟨top :: rest, signedIn⟩) (hrest : rest ≠ []) :
    WellFormed ⟨rest, signedIn⟩ :=
  ⟨(List.isChain_cons.mp hs.chain).2, Or.inl (hs.getLast_rest hrest),
    fun hlogin => absurd hlogin (login_notMem hs.chain)⟩

/-- The splash screen is not on the top. -/
theorem WellFormed.top_ne_splash {top : Route} {rest : List Route} {signedIn : Bool}
    (hs : WellFormed ⟨top :: rest, signedIn⟩) : top ≠ .splash := by
  rintro rfl
  cases rest with
  | nil => rcases hs.bottom with h | h <;> cases h
  | cons lower rest =>
    exact (List.isChain_cons_cons.mp hs.chain).1.ne.1 rfl

/-- The logout dialog and the home page under it give way to the login page. -/
theorem WellFormed.logout {below : Route} {rest : List Route} {signedIn : Bool}
    (hs : WellFormed ⟨.logoutDialog :: below :: rest, signedIn⟩) :
    WellFormed ⟨.login :: rest, false⟩ := by
  have hon := (List.isChain_cons_cons.mp hs.chain).1
  obtain rfl : below = .home := by
    revert hon
    cases below <;> decide
  exact (hs.pop (by simp)).replace (by intro lower; cases lower <;> decide)
    (fun _ => Or.inr rfl) fun _ => rfl

/-- Every step keeps a well-formed stack. -/
theorem WellFormed.step {s t : State} {a : Action} (hs : WellFormed s)
    (hstep : step s a = some t) : WellFormed t := by
  obtain ⟨stack, signedIn⟩ := s
  simp only [Navigation.step, Option.bind_eq_bind, Option.bind_eq_some_iff, Option.pure_def,
    Option.some.injEq, List.head?_eq_some_iff] at hstep
  obtain ⟨top, ⟨rest, rfl⟩, moves, hmoves, stack, hfold, rfl⟩ := hstep
  unfold handler at hmoves
  -- one case for every line of the handler
  split at hmoves <;> cases hmoves
  all_goals first
    | cases hfold
      exact hs.push (by decide) (by decide)
    | cases hfold
      exact hs.replaceProtected (by intro lower; cases lower <;> decide) (by decide) (by decide)
    | obtain ⟨rfl, hrest⟩ := pop_eq_some hfold
      exact hs.pop hrest
    | obtain ⟨below, rest', rfl, hlast⟩ := pop_andThen hfold
      obtain ⟨rfl, hrest⟩ := pop_eq_some hlast
      exact (hs.pop (by simp)).pop hrest
    | exact absurd rfl hs.top_ne_splash
    | cases hfold
      exact hs.replace (by intro lower; cases lower <;> decide) (fun _ => Or.inl rfl) (by simp)
    | obtain ⟨below, rest', rfl, hlast⟩ := pop_andThen hfold
      cases hlast
      exact hs.logout

/-! ## Every well-formed stack is reached from every other one -/

/-- The actions that open a route lead to it, whatever lies below. -/
theorem reaches_opens {upper lower : Route} (hon : On upper lower) (rest : List Route)
    (signedIn : Bool) : Reaches Navigation.step ⟨lower :: rest, signedIn⟩
      ⟨upper :: lower :: rest, signedIn && upper ≠ .login⟩ := by
  obtain ⟨as, has⟩ := Option.isSome_iff_exists.mp hon
  have hopen : as.foldlM Navigation.step ⟨lower :: rest, signedIn⟩ =
      some ⟨upper :: lower :: rest, signedIn && upper ≠ .login⟩ := by
    unfold opens at has
    split at has <;> cases has <;> cases signedIn <;> rfl
  exact Reaches.of_actions hopen

/-- The actions that close a route lead to what lies below. -/
theorem reaches_closes {upper lower : Route} (hon : On upper lower) (rest : List Route)
    (signedIn : Bool) : Reaches Navigation.step ⟨upper :: lower :: rest, signedIn⟩
      ⟨lower :: rest, signedIn⟩ := by
  have hclose : (closes upper).foldlM Navigation.step ⟨upper :: lower :: rest, signedIn⟩ =
      some ⟨lower :: rest, signedIn⟩ := by
    cases upper with
    | splash => exact absurd rfl hon.ne.1
    | _ => rfl
  exact Reaches.of_actions hclose

/-- From the home page alone the user can sign out and in again. -/
theorem reaches_login (signedIn : Bool) :
    Reaches Navigation.step ⟨[.home], signedIn⟩ ⟨[.login], false⟩ ∧
      Reaches Navigation.step ⟨[.login], false⟩ ⟨[.home], true⟩ := by
  have hlogout : [Action.logoutIcon, .logout].foldlM Navigation.step ⟨[.home], signedIn⟩ =
      some ⟨[.login], false⟩ := rfl
  have hlogin : [Action.entra].foldlM Navigation.step ⟨[.login], false⟩ =
      some ⟨[.home], true⟩ := rfl
  exact ⟨Reaches.of_actions hlogout, Reaches.of_actions hlogin⟩

/-- The home page alone is reached with and without a user. A second home page is opened
on the list of machines, and the user signs out there and returns. -/
theorem reaches_home (signedIn signedIn' : Bool) :
    Reaches Navigation.step ⟨[.home], signedIn⟩ ⟨[.home], signedIn'⟩ := by
  obtain ⟨hlogout, hlogin⟩ := reaches_login signedIn
  have hunsafe : [Action.macchineRegistrate, .backButton, .logoutIcon, .logout, .back,
      .back].foldlM Navigation.step ⟨[.home], true⟩ = some ⟨[.home], false⟩ := rfl
  have hsignedIn := hlogout.trans hlogin
  cases signedIn' with
  | true => exact hsignedIn
  | false => exact hsignedIn.trans (Reaches.of_actions hunsafe)

/-- Every well-formed stack on a home page is built up from the home page alone. -/
theorem WellFormed.reaches_of_home {stack : List Route} {signedIn : Bool}
    (hs : WellFormed ⟨stack, signedIn⟩) (hbottom : stack.getLast? = some .home)
    (signedIn' : Bool) : Reaches Navigation.step ⟨[.home], signedIn'⟩ ⟨stack, signedIn⟩ := by
  induction stack with
  | nil => cases hbottom
  | cons top rest ih =>
    cases rest with
    | nil =>
      cases hbottom
      exact reaches_home signedIn' signedIn
    | cons lower rest =>
      have hon := (List.isChain_cons_cons.mp hs.chain).1
      have hrest := ih (hs.pop (by simp)) (by rwa [List.getLast?_cons_cons] at hbottom)
      have hopen := reaches_opens hon rest signedIn
      have hflag : (signedIn && decide (top ≠ .login)) = signedIn := by
        by_cases htop : top = .login
        · have hout := hs.login (by simp [htop])
          simp only at hout
          simp [hout]
        · simp [htop]
      rw [hflag] at hopen
      exact hrest.trans hopen

/-- Every well-formed stack on a home page is closed down to it. -/
theorem WellFormed.reaches_home {stack : List Route} {signedIn : Bool}
    (hs : WellFormed ⟨stack, signedIn⟩) (hbottom : stack.getLast? = some .home) :
    Reaches Navigation.step ⟨stack, signedIn⟩ ⟨[.home], signedIn⟩ := by
  induction stack with
  | nil => cases hbottom
  | cons top rest ih =>
    cases rest with
    | nil =>
      cases hbottom
      exact Reaches.refl _
    | cons lower rest =>
      have hon := (List.isChain_cons_cons.mp hs.chain).1
      have hrest := ih (hs.pop (by simp)) (by rwa [List.getLast?_cons_cons] at hbottom)
      exact (reaches_closes hon rest signedIn).trans hrest

/-- Nobody is signed in where there is only the login page. -/
theorem WellFormed.eq_login {s : State} (hs : WellFormed s) (hlogin : s.stack = [.login]) :
    s = ⟨[.login], false⟩ := by
  obtain ⟨stack, signedIn⟩ := s
  cases hlogin
  have hout := hs.login (by simp)
  simp only at hout
  rw [hout]

/-- Every well-formed stack is reached from every other one. -/
theorem WellFormed.reaches {s t : State} (hs : WellFormed s) (ht : WellFormed t) :
    Reaches Navigation.step s t := by
  have hhome : ∃ signedIn, Reaches Navigation.step s ⟨[.home], signedIn⟩ := by
    rcases hs.bottom with hbottom | hlogin
    · exact ⟨s.signedIn, hs.reaches_home hbottom⟩
    · rw [hs.eq_login hlogin]
      exact ⟨true, (reaches_login true).2⟩
  obtain ⟨signedIn, hhome⟩ := hhome
  refine hhome.trans ?_
  rcases ht.bottom with hbottom | hlogin
  · exact ht.reaches_of_home hbottom signedIn
  · rw [ht.eq_login hlogin]
    exact (reaches_login signedIn).1

/-- The page after the splash screen. -/
theorem wellFormed_first (signedIn : Bool) :
    WellFormed ⟨[if signedIn then .home else .login], signedIn⟩ := by
  cases signedIn
  · exact ⟨by simp, Or.inr rfl, fun _ => rfl⟩
  · exact ⟨by simp, Or.inl rfl, by simp⟩

/-- The splash screen only goes to the page of the user. -/
theorem step_start {signedIn : Bool} {a : Action} {t : State}
    (hstep : Navigation.step (State.start signedIn) a = some t) :
    t = ⟨[if signedIn then .home else .login], signedIn⟩ := by
  cases a <;> cases hstep
  rfl

/-- Every state that the app reaches is well formed, but for the splash screen. -/
theorem wellFormed_of_reaches {signedIn : Bool} {t : State}
    (hreaches : Reaches Navigation.step (State.start signedIn) t) :
    t = State.start signedIn ∨ WellFormed t := by
  refine hreaches.invariant (I := fun s => s = State.start signedIn ∨ WellFormed s)
    (Or.inl rfl) ?_
  rintro s a u (rfl | hs) hstep
  · rw [step_start hstep]
    exact Or.inr (wellFormed_first signedIn)
  · exact Or.inr (hs.step hstep)

/-- Every well-formed stack is reached from the launch of the app. -/
theorem WellFormed.reaches_of_start {t : State} (ht : WellFormed t) (signedIn : Bool) :
    Reaches Navigation.step (State.start signedIn) t := by
  have hfirst : [Action.goToNextPage].foldlM Navigation.step (State.start signedIn) =
      some ⟨[if signedIn then .home else .login], signedIn⟩ := rfl
  exact (Reaches.of_actions hfirst).trans ((wellFormed_first signedIn).reaches ht)

/-- **The reachable stacks.** From the launch of the app, exactly the splash screen and the
well-formed stacks are reached, of any depth. -/
theorem reaches_iff {signedIn : Bool} {t : State} :
    Reaches Navigation.step (State.start signedIn) t ↔
      t = State.start signedIn ∨ WellFormed t := by
  constructor
  · exact wellFormed_of_reaches
  · rintro (rfl | ht)
    · exact Reaches.refl _
    · exact ht.reaches_of_start signedIn

/-- **The app has no dead end.** From every reachable stack, every other one can be reached
but the splash screen. -/
theorem reaches_of_reaches {signedIn : Bool} {s t : State}
    (hs : Reaches Navigation.step (State.start signedIn) s)
    (ht : Reaches Navigation.step (State.start signedIn) t) (hsplash : t ≠ State.start signedIn) :
    Reaches Navigation.step s t := by
  have htarget := (wellFormed_of_reaches ht).resolve_left hsplash
  rcases wellFormed_of_reaches hs with rfl | hsource
  · exact ht
  · exact hsource.reaches htarget

/-- From the login page on a list of machines, the form of a scanned machine is reached. -/
theorem reaches_of_reaches_scanned :
    Reaches Navigation.step ⟨[.login, .allControls, .home], false⟩
      ⟨[.saveDialog, .add, .qrCode, .home], true⟩ := by
  have hlogin : WellFormed ⟨[.login, .allControls, .home], false⟩ :=
    ⟨by decide, Or.inl rfl, fun _ => rfl⟩
  have hscanned : WellFormed ⟨[.saveDialog, .add, .qrCode, .home], true⟩ :=
    ⟨by decide, Or.inl rfl, by decide⟩
  exact reaches_of_reaches (hlogin.reaches_of_start true) (hscanned.reaches_of_start true)
    (by decide)

end Navigation

end EthosApp
