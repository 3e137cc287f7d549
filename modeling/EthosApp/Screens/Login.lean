import EthosApp.Screens.Stacks

/-!
# `Screens/Login.dart`

The button of the login page can be tapped while a sign-in is under way, and an accepted
sign-in puts the home page in the place of whatever route is on the top. So a second sign-in
can be answered over the pages of a session, or when a later login page is shown.
-/

namespace EthosApp

open Navigation Runs

namespace Login

/-- `length` of a Dart text, which counts UTF-16 code units: two for each character above the
basic plane. -/
def codeUnits (s : String) : ℕ := s.toList.length + s.toList.countP fun c => 0x10000 ≤ c.toNat

/-- The validator of the email, with the message that the page shows. -/
def emailValidator (value : String) : Option String :=
  if '@' ∈ value.toList ∧ '.' ∈ value.toList then none else some "Inserire una password valida"

/-- The validator of the password. -/
def passwordValidator (value : String) : Option String :=
  if 8 ≤ codeUnits value then none else some "Inserire una password valida"

/-- `_formKey.currentState!.validate()`. -/
def validate (email password : String) : Bool :=
  emailValidator email = none ∧ passwordValidator password = none

/-- How `signInWithEmailAndPassword` ends. -/
inductive SignIn
  | success
  | firebaseAuthException (code : String)
  /-- Another exception, which the page does not catch. -/
  | exception
  deriving DecidableEq

/-- The snack bar of a sign-in that has ended. -/
def SignIn.snackBar : SignIn → Option String
  | success => some "Entrato con successo"
  | firebaseAuthException code =>
    if code = "user-not-found" then some "Nessun utente trovato con questa email"
    else if code = "wrong-password" then some "Password non corretta"
    else some "Si è verificato un errore, riprovare"
  | exception => none

/-- Whether the page goes on after a sign-in has ended. -/
def SignIn.caught : SignIn → Bool
  | exception => false
  | _ => true

/-- A login page on the stack of the app. -/
structure State where
  /-- The stack, and whether a user is signed in. -/
  nav : Navigation.State
  /-- Whether the page is on the top of the stack. It is not on the stack otherwise. -/
  shown : Bool
  /-- Whether the state of the page has not been disposed. -/
  mounted : Bool
  /-- The text of the email. -/
  email : String
  /-- The text of the password. -/
  password : String
  /-- Whether the password is hidden. -/
  obscureText : Bool
  /-- Whether the button shows the spinner. -/
  loadingForm : Bool
  /-- The credentials of the sign-ins under way, oldest first. -/
  signIns : List (String × String)
  /-- The snack bars that were shown, newest first. -/
  snackBars : List String

/-- The page as it is opened. -/
def State.start (nav : Navigation.State) : State :=
  ⟨nav, true, true, "", "", true, false, [], []⟩

/-- What can happen. -/
inductive Action
  /-- The texts are changed. -/
  | email (s : String)
  | password (s : String)
  /-- The password is shown or hidden. -/
  | visibility
  /-- The button of the page. -/
  | entra
  /-- A sign-in ends. -/
  | answer (i : ℕ) (r : SignIn)
  /-- Another page is used, or this one is left. -/
  | nav (a : Navigation.Action)
  /-- The state of the page is disposed, some time after its route was removed. -/
  | dispose

/-- A sign-in that has ended. Firebase has signed the user in before the page is told, and the
handler ends with an exception where the page has been disposed. -/
def State.answered (s : State) (i : ℕ) (r : SignIn) : State :=
  let nav := { s.nav with signedIn := s.nav.signedIn || decide (r = .success) }
  let t := { s with nav, signIns := s.signIns.eraseIdx i }
  if s.mounted ∧ r.caught then
    { t with
      nav := if r = .success then ⟨.home :: nav.stack.tail, nav.signedIn⟩ else nav
      shown := s.shown && decide (r ≠ .success)
      loadingForm := false
      snackBars := r.snackBar.toList ++ s.snackBars }
  else t

/-- One step. A later login page signs the user in at once. -/
def step (s : State) : Action → Option State
  | .email email => if s.shown then some { s with email } else none
  | .password password => if s.shown then some { s with password } else none
  | .visibility => if s.shown then some { s with obscureText := !s.obscureText } else none
  | .entra =>
    if s.shown then
      if validate s.email s.password then
        some { s with loadingForm := true, signIns := s.signIns ++ [(s.email, s.password)] }
      else some { s with snackBars := "Campi inseriti non validi" :: s.snackBars }
    else none
  | .answer i r => if i < s.signIns.length then some (s.answered i r) else none
  | .nav a =>
    if s.shown ∧ a ≠ .back then none
    else (Navigation.step s.nav a).map fun nav => { s with nav, shown := false }
  | .dispose => if s.mounted ∧ ¬ s.shown then some { s with mounted := false } else none

/-- What a step does. -/
inductive StepSpec (s : State) : Action → State → Prop
  | email {email : String} : StepSpec s (.email email) { s with email }
  | password {password : String} : StepSpec s (.password password) { s with password }
  | visibility : StepSpec s .visibility { s with obscureText := !s.obscureText }
  /-- A sign-in is made. -/
  | signIn (hvalid : validate s.email s.password = true) :
      StepSpec s .entra
        { s with loadingForm := true, signIns := s.signIns ++ [(s.email, s.password)] }
  /-- The texts are rejected. -/
  | invalid :
      StepSpec s .entra { s with snackBars := "Campi inseriti non validi" :: s.snackBars }
  | answer {i : ℕ} {r : SignIn} (hi : i < s.signIns.length) :
      StepSpec s (.answer i r) (s.answered i r)
  | nav {a : Navigation.Action} {nav : Navigation.State}
      (hnav : Navigation.step s.nav a = some nav) :
      StepSpec s (.nav a) { s with nav, shown := false }
  | dispose : StepSpec s .dispose { s with mounted := false }

/-- Every step acts in one of these ways. -/
theorem step_spec {s t : State} {a : Action} (hstep : step s a = some t) : StepSpec s a t := by
  cases a with
  | nav a =>
    simp only [step, Option.ite_none_left_eq_some, Option.map_eq_some_iff] at hstep
    obtain ⟨_, nav, hnav, rfl⟩ := hstep
    exact .nav hnav
  | entra =>
    simp only [step, Option.ite_none_right_eq_some] at hstep
    obtain ⟨_, hstep⟩ := hstep
    split at hstep
    · rename_i hvalid
      cases hstep
      exact .signIn hvalid
    · cases hstep
      exact .invalid
  | answer i r =>
    simp only [step, Option.ite_none_right_eq_some, Option.some.injEq] at hstep
    obtain ⟨hi, rfl⟩ := hstep
    exact .answer hi
  | _ =>
    simp only [step, Option.ite_none_right_eq_some, Option.some.injEq] at hstep
    obtain ⟨_, rfl⟩ := hstep
    constructor

/-! ## The stack -/

/-- An accepted sign-in finds a route in whose place the home page can lie, or, where the page
has been disposed, no later login page. -/
def InTime (s : State) : Action → Prop
  | .answer _ .success =>
    if s.mounted then ∀ lower ∈ s.nav.stack[1]?, On .home lower
    else s.nav.stack.head? ≠ some .login
  | _ => True

instance (s : State) : (a : Action) → Decidable (InTime s a)
  | .answer _ .success =>
    inferInstanceAs (Decidable (if s.mounted then ∀ lower ∈ s.nav.stack[1]?, On .home lower
      else s.nav.stack.head? ≠ some .login))
  | .answer _ (.firebaseAuthException _) => isTrue trivial
  | .answer _ .exception => isTrue trivial
  | .email _ => isTrue trivial
  | .password _ => isTrue trivial
  | .visibility => isTrue trivial
  | .entra => isTrue trivial
  | .nav _ => isTrue trivial
  | .dispose => isTrue trivial

/-- The home page takes the place of the top route of a well-formed stack exactly if it can lie
on the route below. -/
theorem wellFormed_home_iff {top : Route} {rest : List Route} {signedIn : Bool}
    (hs : WellFormed ⟨top :: rest, signedIn⟩) :
    WellFormed ⟨.home :: rest, true⟩ ↔ ∀ lower ∈ rest[0]?, On .home lower := by
  constructor
  · intro ht lower hlower
    cases rest with
    | nil => cases hlower
    | cons r rest =>
      cases hlower
      exact (List.isChain_cons_cons.mp ht.chain).1
  · intro hon
    cases rest with
    | nil => exact ⟨by simp, Or.inl rfl, by simp⟩
    | cons lower rest =>
      refine ⟨?_, Or.inl ?_, ?_⟩
      · exact List.isChain_cons_cons.mpr ⟨hon lower rfl, (hs.pop (by simp)).chain⟩
      · rw [List.getLast?_cons_cons]
        exact hs.getLast_rest (by simp)
      · intro hlogin
        exact absurd ((List.mem_cons.mp hlogin).resolve_left (by simp)) (login_notMem hs.chain)

/-- A user is signed in over a well-formed stack exactly if no login page is on the top. -/
theorem wellFormed_signedIn_iff {s : Navigation.State} (hs : WellFormed s) :
    WellFormed ⟨s.stack, true⟩ ↔ s.stack.head? ≠ some .login := by
  constructor
  · intro ht hlogin
    have hout := ht.login (List.mem_of_mem_head? hlogin)
    cases hout
  · intro hlogin
    refine ⟨hs.chain, hs.bottom, ?_⟩
    intro hmem
    obtain ⟨stack, signedIn⟩ := s
    cases stack with
    | nil => cases hmem
    | cons top rest =>
      rcases List.mem_cons.mp hmem with rfl | hmem
      · exact absurd rfl hlogin
      · exact absurd hmem (login_notMem hs.chain)

/-- A sign-in that ends leads from a well-formed stack to one exactly if it is in time. -/
theorem wellFormed_answered_iff {s : State} {i : ℕ} {r : SignIn} (hs : WellFormed s.nav) :
    WellFormed (s.answered i r).nav ↔ InTime s (.answer i r) := by
  cases r with
  | success =>
    cases hmounted : s.mounted with
    | false => simpa [State.answered, InTime, hmounted] using wellFormed_signedIn_iff hs
    | true =>
      obtain ⟨⟨stack, signedIn⟩, _⟩ := s
      cases stack with
      | nil => rcases hs.bottom with h | h <;> cases h
      | cons top rest =>
        cases hmounted
        simpa [State.answered, InTime, SignIn.caught] using wellFormed_home_iff hs
  | firebaseAuthException code =>
    refine iff_of_true ?_ trivial
    unfold State.answered
    split <;> simpa using hs
  | exception =>
    refine iff_of_true ?_ trivial
    simpa [State.answered, SignIn.caught] using hs

/-- A step leads from a well-formed stack to one exactly if it is in time. -/
theorem wellFormed_step_iff {s t : State} {a : Action} (hs : WellFormed s.nav)
    (hstep : step s a = some t) : WellFormed t.nav ↔ InTime s a := by
  cases step_spec hstep with
  | answer => exact wellFormed_answered_iff hs
  | nav hnav => exact iff_of_true (hs.step hnav) trivial
  | _ => exact iff_of_true hs trivial

/-- **When the app stays on its stacks.** In every run of a login page that the app has
reached, with any number of sign-ins that end at any time, the stack is always one to which
the app leads where a sign-in ends at once, exactly if every accepted sign-in is in time. -/
theorem always_reaches_iff {signedIn : Bool} {nav : Navigation.State}
    (hnav : Reaches Navigation.step (Navigation.State.start signedIn) nav)
    (hlogin : nav.stack.head? = some .login) {hist : List (State × Action)} {s : State}
    (hrun : Run step (State.start nav) hist s) :
    Always (fun s => Reaches Navigation.step nav s.nav) hist s ↔ Steps InTime hist := by
  have hstart : WellFormed nav := by
    refine (wellFormed_of_reaches hnav).resolve_left ?_
    rintro rfl
    cases hlogin
  have hiff : ∀ t, Reaches Navigation.step nav t ↔ WellFormed t := by
    intro t
    refine ⟨fun hreaches => ?_, hstart.reaches⟩
    exact hreaches.invariant hstart fun _ _ _ hs hstep => hs.step hstep
  simp only [hiff]
  exact hrun.always_iff (fun _ => True) trivial (fun _ _ _ _ _ => trivial) hstart
    fun _ _ _ _ hs hstep => wellFormed_step_iff hs hstep

/-- The button is tapped twice, and both sign-ins are accepted before the page is disposed. -/
def tapTwice : List Action :=
  [.email "a@b.it", .password "password", .entra, .entra, .answer 0 .success,
    .answer 0 .success, .dispose]

/-- The run of the two sign-ins from the first login page. -/
def runTapTwice : Option (List (State × Action) × State) :=
  exec step [] (State.start ⟨[.login], false⟩) tapTwice

/-- The actions are possible one after the other. -/
theorem runTapTwice_isSome : runTapTwice.isSome := by decide +kernel

/-- Two sign-ins that are answered one after the other leave the home page on the stack. -/
theorem always_reaches_iff_twice :
    Always (fun s => Reaches Navigation.step ⟨[.login], false⟩ s.nav)
      (runTapTwice.get runTapTwice_isSome).1 (runTapTwice.get runTapTwice_isSome).2 := by
  have hfirst : [Navigation.Action.goToNextPage].foldlM Navigation.step
      (Navigation.State.start false) = some ⟨[.login], false⟩ := rfl
  exact (always_reaches_iff (Reaches.of_actions hfirst) rfl (run_get runTapTwice_isSome)).mpr
    (by unfold Steps; decide +kernel)

-- a form that is opened before the second answer is replaced by a second home page
example : (exec step [] (State.start ⟨[.login], false⟩)
    [.email "a@b.it", .password "password", .entra, .entra, .answer 0 .success, .nav .aggiungi,
      .answer 0 .success]).map (fun r => r.2.nav.stack) = some [.home, .home] := by
  decide +kernel

/-! ## The sign-ins under way -/

/-- The button shows the spinner exactly if a sign-in is under way. -/
def State.Spinning (s : State) : Prop :=
  s.mounted = true → (s.loadingForm = true ↔ s.signIns ≠ [])

/-- A sign-in that the page catches is the only one under way, and one that it does not catch
is not. -/
def Alone (s : State) : Action → Prop
  | .answer _ r => s.mounted = true → (r.caught = true ↔ s.signIns.length = 1)
  | _ => True

instance (s : State) : (a : Action) → Decidable (Alone s a)
  | .answer _ _ => inferInstanceAs (Decidable (_ → _))
  | .email _ => isTrue trivial
  | .password _ => isTrue trivial
  | .visibility => isTrue trivial
  | .entra => isTrue trivial
  | .nav _ => isTrue trivial
  | .dispose => isTrue trivial

/-- A sign-in that ends keeps the spinner right exactly if it is alone, or not caught and not
alone. -/
theorem spinning_answered_iff {s : State} {i : ℕ} {r : SignIn} (hs : s.Spinning)
    (hi : i < s.signIns.length) : (s.answered i r).Spinning ↔ Alone s (.answer i r) := by
  have hlast : s.signIns.eraseIdx i = [] ↔ s.signIns.length = 1 := by
    rw [List.eraseIdx_eq_nil_iff, ← List.length_eq_zero_iff]
    omega
  have hunder : s.signIns ≠ [] := List.ne_nil_of_length_pos (by omega)
  unfold State.Spinning Alone
  cases hmounted : s.mounted with
  | false => simp [State.answered, hmounted]
  | true =>
    have hloading : s.loadingForm = true := (hs hmounted).mpr hunder
    cases hcaught : r.caught with
    | true => simp [State.answered, hmounted, hcaught, hlast]
    | false => simp [State.answered, hmounted, hcaught, hloading, hlast]

/-- A step keeps the spinner right exactly if a sign-in that it ends is alone. -/
theorem spinning_step_iff {s t : State} {a : Action} (hs : s.Spinning)
    (hstep : step s a = some t) : t.Spinning ↔ Alone s a := by
  cases step_spec hstep with
  | answer hi => exact spinning_answered_iff hs hi
  | signIn => exact iff_of_true (fun _ => by simp) trivial
  | dispose => exact iff_of_true (fun hmounted => by cases hmounted) trivial
  | _ => exact iff_of_true hs trivial

/-- **When the spinner is right.** In every run of a login page, the page shows the spinner
exactly while a sign-in is under way, if and only if each sign-in that ends on the page is the
only one under way where the page catches it, and is not where it does not. -/
theorem always_spinning_iff {nav : Navigation.State} {hist : List (State × Action)} {s : State}
    (hrun : Run step (State.start nav) hist s) :
    Always State.Spinning hist s ↔ Steps Alone hist :=
  hrun.always_iff (fun _ => True) trivial (fun _ _ _ _ _ => trivial)
    (by simp [State.Spinning, State.start]) fun _ _ _ _ hs hstep => spinning_step_iff hs hstep

/-- The first of two sign-ins that ends takes the spinner away. -/
theorem always_spinning_iff_twice :
    ¬ Always State.Spinning (runTapTwice.get runTapTwice_isSome).1
      (runTapTwice.get runTapTwice_isSome).2 :=
  fun hspinning => absurd ((always_spinning_iff (run_get runTapTwice_isSome)).mp hspinning)
    (by unfold Steps; decide +kernel)

end Login

end EthosApp
