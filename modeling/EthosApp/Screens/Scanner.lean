import EthosApp.Lib.Runs
import EthosApp.Services.DatabaseCommand

/-!
# `Screens/QRCode.dart`

Every code that the stream delivers starts a handler of its own. It pauses the camera
without waiting for it, looks the code up, and then either replaces the top route by the
`ControlView` of the machine, or shows a dialog and resumes the camera after it. Codes that
are recognised before the pause takes effect are still delivered.
-/

namespace EthosApp

open Firestore DocStore Runs

namespace Scanner

/-- How far the handler of a code has come. -/
inductive Phase
  /-- `isControlloPresente` is awaited. -/
  | isControlloPresente
  /-- The code is registered, and `getControllo` is awaited. -/
  | getControllo
  /-- `showDialog` is awaited. A registered code gets there if its lookup failed. -/
  | showDialog (registered : Bool)
  /-- `pushReplacement` has been called with the `ControlView` of a machine. -/
  | pushReplacement (c : Controllo)
  /-- The handler has ended without a navigation. -/
  | ended (registered : Bool)
  deriving DecidableEq

/-- Whether the code is known to have been registered when it was looked up. -/
def Phase.registered : Phase → Bool
  | .isControlloPresente => false
  | .getControllo => true
  | .showDialog registered => registered
  | .pushReplacement _ => true
  | .ended registered => registered

/-- Whether the handler has navigated. -/
def Phase.pushed : Phase → Bool
  | .pushReplacement _ => true
  | _ => false

/-- Whether a lookup, a dialog or a navigation of the handler is pending. A navigation is
pending until the screen that is left has been disposed. -/
def Phase.inFlight (mounted : Bool) : Phase → Bool
  | .ended _ => false
  | .pushReplacement _ => mounted
  | _ => true

/-- Disposing the screen leaves no more handlers in flight. -/
theorem Phase.inFlight_disposed {p : Phase} {mounted : Bool} (hidle : p.inFlight mounted = false) :
    p.inFlight false = false := by
  cases p with
  | pushReplacement c => rfl
  | ended registered => rfl
  | isControlloPresente => cases hidle
  | getControllo => cases hidle
  | showDialog registered => cases hidle

/-- Only the handler of a registered code navigates. -/
theorem Phase.registered_of_pushed {p : Phase} (hpushed : p.pushed = true) :
    p.registered = true := by
  cases p with
  | pushReplacement c => rfl
  | _ => cases hpushed

/-- On a screen that is not disposed, a navigation is in flight. -/
theorem Phase.inFlight_of_pushed {p : Phase} (hpushed : p.pushed = true) :
    p.inFlight true = true := by
  cases p with
  | pushReplacement c => rfl
  | _ => cases hpushed

/-- The handler of a delivered code. -/
structure Handler where
  /-- The code. -/
  code : String
  /-- How far the handler has come. -/
  phase : Phase
  deriving DecidableEq

/-- What is handed to the camera. -/
inductive CameraCall
  | pauseCamera
  | resumeCamera
  deriving DecidableEq

/-- The routes from the scanner up. -/
inductive Route
  /-- The scanner. -/
  | qrCode
  /-- The dialog of a handler. -/
  | unregisteredMachineAlert (i : ℕ)
  /-- The view of a machine. -/
  | controlView (c : Controllo)
  /-- Another screen. -/
  | other
  deriving DecidableEq

/-- The state of one scanner screen. -/
structure State where
  /-- Whether the camera recognises codes. -/
  camera : Bool
  /-- The calls to the camera that have not taken effect, oldest first. -/
  calls : List CameraCall
  /-- The recognised codes that have not been delivered, oldest first. -/
  buffer : List String
  /-- The handlers of the delivered codes, oldest first. -/
  handlers : List Handler
  /-- The routes from the scanner up, top first. -/
  routes : List Route
  /-- Whether the state of the screen has not been disposed. -/
  mounted : Bool

/-- The state after `_onQRViewCreated`. -/
def State.start : State := ⟨true, [], [], [], [.qrCode], true⟩

/-- What can happen next. Handlers are numbered in the order of delivery. -/
inductive Action
  /-- The camera recognises a code. -/
  | recognise (code : String)
  /-- The oldest call to the camera takes effect. -/
  | takeEffect
  /-- The stream delivers the oldest recognised code. -/
  | deliver
  /-- `isControlloPresente` is answered over the remote state of that time. -/
  | isControlloPresente (i : ℕ) (o : Outcome) (b : Backend)
  /-- `getControllo` is answered over the remote state of that time. -/
  | getControllo (i : ℕ) (o : Outcome) (b : Backend)
  /-- The top route is popped: `No`, the close button, or the system's back button. -/
  | pop
  /-- The dialog on top is replaced by the form of a new machine: `Si`. -/
  | si
  /-- A screen over the scanner opens another one. -/
  | openRoute
  /-- The state of the screen is disposed, some time after its route was removed. -/
  | dispose

/-- The state with another phase of a handler. -/
def State.setPhase (s : State) (i : ℕ) (h : Handler) (p : Phase) : State :=
  { s with handlers := s.handlers.set i { h with phase := p } }

/-- The end of the handler whose dialog has been closed: `controller.resumeCamera()`. -/
def State.dismissed (s : State) (i : ℕ) : Option State :=
  (s.handlers[i]?).bind fun h =>
    match h.phase with
    | .showDialog registered =>
      some { s.setPhase i h (.ended registered) with calls := s.calls ++ [.resumeCamera] }
    | _ => none

/-- The top route is replaced. If it is a dialog, the dialog is closed. -/
def State.replaceTop (s : State) (r : Route) : Option State :=
  match s.routes with
  | [] => some { s with routes := [r] }
  | .unregisteredMachineAlert j :: rs => { s with routes := r :: rs }.dismissed j
  | _ :: rs => some { s with routes := r :: rs }

/-- What a handler gets from `getControllo`. Any exception is rendered as `none`. -/
def answer (o : Outcome) (code : String) (b : Backend) : Option Controllo :=
  match o with
  | .success => getControllo code b
  | .failure => none

/-- One step. The context of a disposed screen cannot be used, so that its handlers end
with an exception instead of a dialog or a navigation. The subscription is never cancelled:
what was recognised before is still delivered. -/
def step (s : State) : Action → Option State
  | .recognise code =>
    if s.camera ∧ s.mounted then some { s with buffer := s.buffer ++ [code] } else none
  | .takeEffect =>
    match s.calls with
    | [] => none
    | call :: calls => some { s with camera := call = .resumeCamera, calls := calls }
  | .deliver =>
    match s.buffer with
    | [] => none
    | code :: buffer => some
      { s with
        buffer := buffer
        handlers := s.handlers ++ [⟨code, .isControlloPresente⟩]
        calls := s.calls ++ [.pauseCamera] }
  | .isControlloPresente i o b =>
    (s.handlers[i]?).bind fun h =>
      if h.phase = .isControlloPresente then
        let registered := isControlloPresente .success h.code b
        if isControlloPresente o h.code b then some (s.setPhase i h .getControllo)
        else if s.mounted then some
          { s.setPhase i h (.showDialog registered) with
            routes := .unregisteredMachineAlert i :: s.routes }
        else some (s.setPhase i h (.ended registered))
      else none
  | .getControllo i o b =>
    (s.handlers[i]?).bind fun h =>
      if h.phase = .getControllo then
        match answer o h.code b, s.mounted with
        | some c, true => (s.setPhase i h (.pushReplacement c)).replaceTop (.controlView c)
        | _, _ => some (s.setPhase i h (.ended true))
      else none
  | .pop =>
    match s.routes with
    | [] => none
    | .unregisteredMachineAlert j :: rs => { s with routes := rs }.dismissed j
    | _ :: rs => some { s with routes := rs }
  | .si =>
    match s.routes with
    | .unregisteredMachineAlert _ :: _ => s.replaceTop .other
    | _ => none
  | .openRoute =>
    match s.routes with
    | .controlView _ :: _ => some { s with routes := .other :: s.routes }
    | .other :: _ => some { s with routes := .other :: s.routes }
    | _ => none
  | .dispose =>
    if s.mounted ∧ .qrCode ∉ s.routes then some { s with mounted := false } else none

/-! ## One navigation per scan -/

/-- At most one navigation is made. -/
structure Safe (s : State) : Prop where
  /-- No code is taken up while a lookup, a dialog or a navigation for an earlier code is
  pending. -/
  alone : s.handlers.Pairwise fun h _ => h.phase.inFlight s.mounted = false
  /-- At most one handler has navigated. -/
  once : (s.handlers.filter fun h => h.phase.pushed).length ≤ 1
  /-- No code that was delivered before the one of a navigation was registered. -/
  first : s.handlers.Pairwise fun h h' => h'.phase.pushed = true → h.phase.registered = false

/-- What is required of two handlers, the second of a later code. -/
def Follows (mounted : Bool) (h h' : Handler) : Prop :=
  h.phase.inFlight mounted = false ∧ (h'.phase.pushed = true → h.phase.registered = false)

instance (mounted : Bool) (h h' : Handler) : Decidable (Follows mounted h h') :=
  inferInstanceAs (Decidable (_ ∧ _))

/-- Where no earlier code was registered, only one handler has navigated. -/
theorem once_of_first {hs : List Handler}
    (hfirst : hs.Pairwise fun h h' => h'.phase.pushed = true → h.phase.registered = false) :
    (hs.filter fun h => h.phase.pushed).length ≤ 1 := by
  have hpushed : ∀ h ∈ hs.filter (fun h => h.phase.pushed), h.phase.pushed = true := by
    intro h hh
    exact (List.mem_filter.mp hh).2
  have hpairs := hfirst.filter fun h => h.phase.pushed
  rcases hlist : hs.filter (fun h => h.phase.pushed) with _ | ⟨h, _ | ⟨h', rest⟩⟩
  · rw [hlist]
    exact Nat.zero_le 1
  · rw [hlist]
    exact le_rfl
  · rw [hlist] at hpushed hpairs
    have hnot := (List.pairwise_cons.mp hpairs).1 h' List.mem_cons_self (hpushed h' (by simp))
    have hyes := hpushed h List.mem_cons_self
    rw [Phase.registered_of_pushed hyes] at hnot
    cases hnot

/-- Safety is a requirement on every two handlers. -/
theorem safe_iff {s : State} : Safe s ↔ s.handlers.Pairwise (Follows s.mounted) := by
  constructor
  · rintro ⟨halone, _, hfirst⟩
    exact halone.and hfirst
  · intro hfollows
    obtain ⟨halone, hfirst⟩ := List.pairwise_and_iff.mp hfollows
    exact ⟨halone, once_of_first hfirst, hfirst⟩

instance (s : State) : Decidable (Safe s) := decidable_of_iff _ safe_iff.symm

/-- A handler in flight is the one of the last code. -/
theorem exists_last {mounted : Bool} {hs : List Handler} {i : ℕ} {h : Handler}
    (halone : hs.Pairwise fun h _ => h.phase.inFlight mounted = false) (hget : hs[i]? = some h)
    (hflight : h.phase.inFlight mounted = true) :
    ∃ before, hs = before ++ [h] ∧ before.length = i := by
  obtain ⟨hlt, rfl⟩ := List.getElem?_eq_some_iff.mp hget
  have hsplit : hs = hs.take i ++ hs[i] :: hs.drop (i + 1) := by
    rw [← List.drop_eq_getElem_cons hlt, List.take_append_drop]
  have hnone : hs.drop (i + 1) = [] := by
    rw [List.eq_nil_iff_forall_not_mem]
    intro h' hh'
    rw [hsplit] at halone
    obtain ⟨_, hcons, _⟩ := List.pairwise_append.mp halone
    have hnot := (List.pairwise_cons.mp hcons).1 h' hh'
    rw [hflight] at hnot
    cases hnot
  rw [hnone] at hsplit
  exact ⟨hs.take i, hsplit, by rw [List.length_take]; omega⟩

/-- Giving another phase to the handler in flight is safe exactly if it does not navigate
or no code delivered before it was registered. -/
theorem safe_setPhase_iff {s t : State} {i : ℕ} {h : Handler} {p : Phase} (hs : Safe s)
    (hget : s.handlers[i]? = some h) (hflight : h.phase.inFlight s.mounted = true)
    (ht : t.handlers = s.handlers.set i { h with phase := p }) (hmounted : t.mounted = s.mounted) :
    Safe t ↔ (p.pushed = true → ∀ h' ∈ s.handlers.take i, h'.phase.registered = false) := by
  obtain ⟨before, hbefore, rfl⟩ := exists_last hs.alone hget hflight
  rw [safe_iff, hbefore, List.pairwise_append] at hs
  obtain ⟨hpairs, _, hlast⟩ := hs
  have hset : t.handlers = before ++ [{ h with phase := p }] := by
    rw [ht, hbefore]
    simp
  rw [safe_iff, hset, hmounted, List.pairwise_append, hbefore, List.take_left]
  constructor
  · rintro ⟨_, _, hfollows⟩ hpushed h' hh'
    exact (hfollows h' hh' _ (List.mem_singleton_self _)).2 hpushed
  · intro hregistered
    refine ⟨hpairs, List.pairwise_singleton _ _, ?_⟩
    intro h' hh' x hx
    rw [List.mem_singleton.mp hx]
    have hidle := (hlast h' hh' h (List.mem_singleton_self _)).1
    exact ⟨hidle, fun hpushed => hregistered hpushed h' hh'⟩

/-- Taking up a code is safe exactly if no handler is in flight. -/
theorem safe_deliver_iff {s t : State} {code : String} (hs : Safe s)
    (ht : t.handlers = s.handlers ++ [⟨code, .isControlloPresente⟩])
    (hmounted : t.mounted = s.mounted) :
    Safe t ↔ ∀ h ∈ s.handlers, h.phase.inFlight s.mounted = false := by
  rw [safe_iff, ht, hmounted, List.pairwise_append]
  constructor
  · rintro ⟨_, _, hfollows⟩ h hh
    exact (hfollows h hh _ (List.mem_singleton_self _)).1
  · intro hidle
    refine ⟨safe_iff.mp hs, List.pairwise_singleton _ _, ?_⟩
    intro h hh x hx
    rw [List.mem_singleton.mp hx]
    refine ⟨hidle h hh, ?_⟩
    intro hpushed
    cases hpushed

/-- The condition on a step: a code is delivered while no handler is in flight, and no
navigation follows a registered code whose handler has ended without one. -/
def Clear (s : State) : Action → Prop
  | .deliver => ∀ h ∈ s.handlers, h.phase.inFlight s.mounted = false
  | .getControllo i o b => s.mounted = true →
      ((s.handlers[i]?).bind fun h => answer o h.code b).isSome = true →
        ∀ h ∈ s.handlers, h.phase ≠ .ended true
  | _ => True

instance (s : State) (a : Action) : Decidable (Clear s a) :=
  match a with
  | .deliver => inferInstanceAs (Decidable (∀ h ∈ s.handlers, _))
  | .getControllo _ _ _ => inferInstanceAs (Decidable (_ → _ → ∀ h ∈ s.handlers, _))
  | .recognise _ | .takeEffect | .isControlloPresente _ _ _ | .pop | .si | .openRoute
  | .dispose => isTrue trivial

/-! ## Steps -/

/-- Safety depends on the handlers and on the screen being mounted. -/
theorem Safe.congr {s t : State} (hs : Safe s) (hhandlers : t.handlers = s.handlers)
    (hmounted : t.mounted = s.mounted) : Safe t := by
  rw [safe_iff] at hs ⊢
  rwa [hhandlers, hmounted]

/-- A phase without a navigation is safe. -/
theorem Safe.setPhase {s t : State} {i : ℕ} {h : Handler} {p : Phase} (hs : Safe s)
    (hget : s.handlers[i]? = some h) (hflight : h.phase.inFlight s.mounted = true)
    (hp : p.pushed = false) (ht : t.handlers = s.handlers.set i { h with phase := p })
    (hmounted : t.mounted = s.mounted) : Safe t := by
  refine (safe_setPhase_iff hs hget hflight ht hmounted).mpr ?_
  intro hpushed
  rw [hp] at hpushed
  cases hpushed

/-- A dismissed dialog ends its handler and resumes the camera. -/
theorem dismissed_eq_some {s t : State} {i : ℕ} (h : s.dismissed i = some t) :
    ∃ h registered, s.handlers[i]? = some h ∧ h.phase = .showDialog registered ∧
      t = { s.setPhase i h (.ended registered) with calls := s.calls ++ [.resumeCamera] } := by
  simp only [State.dismissed, Option.bind_eq_some_iff] at h
  obtain ⟨h, hget, hphase⟩ := h
  split at hphase
  · rename_i registered hdialog
    cases hphase
    exact ⟨h, registered, hget, hdialog, rfl⟩
  · cases hphase

/-- Dismissing a dialog is safe. -/
theorem safe_dismissed {s t : State} {i : ℕ} (h : s.dismissed i = some t) (hs : Safe s) :
    Safe t := by
  obtain ⟨h, registered, hget, hphase, rfl⟩ := dismissed_eq_some h
  exact hs.setPhase hget (by rw [hphase]; rfl) rfl rfl rfl

/-- Replacing the top route changes nothing else, unless a dialog is dismissed. -/
theorem replaceTop_eq_some {s t : State} {r : Route} (h : s.replaceTop r = some t) :
    (∃ routes, t = { s with routes := routes }) ∨
      ∃ j routes, State.dismissed { s with routes := routes } j = some t := by
  unfold State.replaceTop at h
  split at h
  · cases h
    exact Or.inl ⟨_, rfl⟩
  · exact Or.inr ⟨_, _, h⟩
  · cases h
    exact Or.inl ⟨_, rfl⟩

/-- A navigation dismisses no dialog: it would belong to a second handler in flight. -/
theorem replaceTop_of_alone {s t : State} {i : ℕ} {h : Handler} {c : Controllo} {r : Route}
    (halone : s.handlers.Pairwise fun h _ => h.phase.inFlight s.mounted = false)
    (hget : s.handlers[i]? = some h) (hphase : h.phase = .getControllo)
    (ht : (s.setPhase i h (.pushReplacement c)).replaceTop r = some t) :
    ∃ routes, t = { s.setPhase i h (.pushReplacement c) with routes := routes } := by
  rcases replaceTop_eq_some ht with hroutes | ⟨j, routes, hdismissed⟩
  · exact hroutes
  · exfalso
    obtain ⟨h', registered, hget', hdialog, _⟩ := dismissed_eq_some hdismissed
    have hne : j ≠ i := by
      rintro rfl
      obtain ⟨hlt, _⟩ := List.getElem?_eq_some_iff.mp hget
      simp only [State.setPhase, List.getElem?_set_self hlt, Option.some.injEq] at hget'
      rw [← hget'] at hdialog
      cases hdialog
    have hold : s.handlers[j]? = some h' := by
      simpa [State.setPhase, List.getElem?_set_ne hne.symm] using hget'
    obtain ⟨before, hbefore, hlength⟩ := exists_last halone hget (by rw [hphase]; rfl)
    obtain ⟨before', hbefore', hlength'⟩ := exists_last halone hold (by rw [hdialog]; rfl)
    have hlengths := congrArg List.length (hbefore.symm.trans hbefore')
    simp only [List.length_append, List.length_singleton] at hlengths
    omega

/-- A navigation is safe exactly if no handler before it has ended without a navigation
although its code was registered. -/
theorem safe_push_iff {s t : State} {i : ℕ} {h : Handler} {c : Controllo} {r : Route}
    (hs : Safe s) (hget : s.handlers[i]? = some h) (hphase : h.phase = .getControllo)
    (hmounted : s.mounted = true)
    (ht : (s.setPhase i h (.pushReplacement c)).replaceTop r = some t) :
    Safe t ↔ ∀ h' ∈ s.handlers, h'.phase ≠ .ended true := by
  have hflight : h.phase.inFlight s.mounted = true := by rw [hphase]; rfl
  obtain ⟨before, hbefore, hlength⟩ := exists_last hs.alone hget hflight
  obtain ⟨routes, rfl⟩ := replaceTop_of_alone hs.alone hget hphase ht
  refine (safe_setPhase_iff (t := { s.setPhase i h (.pushReplacement c) with routes := routes })
    hs hget hflight rfl rfl).trans ?_
  rw [hbefore, ← hlength, List.take_left]
  have hidle := hs.alone
  rw [hbefore, List.pairwise_append] at hidle
  constructor
  · intro hregistered h' hh' hended
    rcases List.mem_append.mp hh' with hh' | hh'
    · have hnot := hregistered rfl h' hh'
      rw [hended] at hnot
      cases hnot
    · rw [List.mem_singleton.mp hh', hphase] at hended
      cases hended
  · intro hended _ h' hh'
    have hnot := hidle.2.2 h' hh' h (List.mem_singleton_self _)
    have hne := hended h' (List.mem_append_left _ hh')
    rw [hmounted] at hnot
    cases hphase' : h'.phase with
    | ended registered =>
      rw [hphase'] at hne
      simpa [Phase.registered] using hne
    | _ =>
      rw [hphase'] at hnot
      cases hnot

/-- The answer of `isControlloPresente` is safe: it opens no route but a dialog. -/
theorem safe_isControlloPresente {s t : State} {i : ℕ} {o : Outcome} {b : Backend}
    (hstep : step s (.isControlloPresente i o b) = some t) (hs : Safe s) : Safe t := by
  simp only [step, Option.bind_eq_some_iff, Option.ite_none_right_eq_some] at hstep
  obtain ⟨h, hget, hphase, hstep⟩ := hstep
  have hflight : h.phase.inFlight s.mounted = true := by rw [hphase]; rfl
  split_ifs at hstep
  all_goals
    cases hstep
    exact hs.setPhase hget hflight rfl rfl rfl

/-- The answer of `getControllo` is safe exactly if it is clear. -/
theorem safe_getControllo_iff {s t : State} {i : ℕ} {o : Outcome} {b : Backend}
    (hstep : step s (.getControllo i o b) = some t) (hs : Safe s) :
    Safe t ↔ Clear s (.getControllo i o b) := by
  simp only [step, Option.bind_eq_some_iff, Option.ite_none_right_eq_some] at hstep
  obtain ⟨h, hget, hphase, hstep⟩ := hstep
  have hflight : h.phase.inFlight s.mounted = true := by rw [hphase]; rfl
  split at hstep
  · rename_i c hanswer hmounted
    rw [safe_push_iff hs hget hphase hmounted hstep]
    simp [Clear, hmounted, hget, hanswer]
  · -- the lookup has failed, or the screen has been disposed
    rename_i hfails
    cases hstep
    refine iff_of_true (hs.setPhase hget hflight rfl rfl rfl) ?_
    intro hmounted hsome
    rw [hget, Option.bind_some] at hsome
    obtain ⟨c, hanswer⟩ := Option.isSome_iff_exists.mp hsome
    exact absurd hmounted (hfails c hanswer)

/-- Popping a route is safe. -/
theorem safe_pop {s t : State} (hstep : step s .pop = some t) (hs : Safe s) : Safe t := by
  simp only [step] at hstep
  split at hstep
  · cases hstep
  · exact safe_dismissed hstep (hs.congr rfl rfl)
  · cases hstep
    exact hs.congr rfl rfl

/-- Going from a dialog to the form of a new machine is safe. -/
theorem safe_si {s t : State} (hstep : step s .si = some t) (hs : Safe s) : Safe t := by
  simp only [step] at hstep
  split at hstep
  · rcases replaceTop_eq_some hstep with ⟨routes, rfl⟩ | ⟨j, routes, hdismissed⟩
    · exact hs.congr rfl rfl
    · exact safe_dismissed hdismissed (hs.congr rfl rfl)
  · cases hstep

/-- Disposing the screen is safe: no navigation is pending any more. -/
theorem safe_dispose {s : State} (hs : Safe s) : Safe { s with mounted := false } := by
  rw [safe_iff] at hs ⊢
  refine hs.imp ?_
  rintro h h' ⟨hidle, hregistered⟩
  exact ⟨Phase.inFlight_disposed hidle, hregistered⟩

/-- A step is safe exactly if it is clear. -/
theorem safe_step_iff {s t : State} {a : Action} (hs : Safe s) (hstep : step s a = some t) :
    Safe t ↔ Clear s a := by
  cases a with
  | recognise code =>
    simp only [step, Option.ite_none_right_eq_some, Option.some.injEq] at hstep
    obtain ⟨_, rfl⟩ := hstep
    exact iff_of_true (hs.congr rfl rfl) trivial
  | takeEffect =>
    simp only [step] at hstep
    split at hstep
    · cases hstep
    · cases hstep
      exact iff_of_true (hs.congr rfl rfl) trivial
  | deliver =>
    simp only [step] at hstep
    split at hstep
    · cases hstep
    · cases hstep
      exact safe_deliver_iff hs rfl rfl
  | isControlloPresente i o b => exact iff_of_true (safe_isControlloPresente hstep hs) trivial
  | getControllo i o b => exact safe_getControllo_iff hstep hs
  | pop => exact iff_of_true (safe_pop hstep hs) trivial
  | si => exact iff_of_true (safe_si hstep hs) trivial
  | openRoute =>
    refine iff_of_true ?_ trivial
    simp only [step] at hstep
    split at hstep
    · cases hstep
      exact hs.congr rfl rfl
    · cases hstep
      exact hs.congr rfl rfl
    · cases hstep
  | dispose =>
    simp only [step, Option.ite_none_right_eq_some, Option.some.injEq] at hstep
    obtain ⟨_, rfl⟩ := hstep
    exact iff_of_true (safe_dispose hs) trivial

/-! ## A camera that pauses in time -/

/-- Whether the camera recognises codes once every call to it has taken effect. -/
def State.resumed (s : State) : Bool :=
  (s.calls.getLast?.map fun call => decide (call = .resumeCamera)).getD s.camera

/-- A code is recognised only after every call to the camera has taken effect and every code
before it has been delivered. -/
def Timely (s : State) : Action → Prop
  | .recognise _ => s.calls = [] ∧ s.buffer = []
  | _ => True

instance (s : State) (a : Action) : Decidable (Timely s a) :=
  match a with
  | .recognise _ => inferInstanceAs (Decidable (_ ∧ _))
  | .takeEffect | .deliver | .isControlloPresente _ _ _ | .getControllo _ _ _ | .pop | .si
  | .openRoute | .dispose => isTrue trivial

/-- A handler in flight is the only one and keeps the camera paused. -/
structure Paused (s : State) : Prop where
  /-- No code is taken up while a lookup, a dialog or a navigation for an earlier code is
  pending. -/
  alone : s.handlers.Pairwise fun h _ => h.phase.inFlight s.mounted = false
  /-- At most one handler has navigated. -/
  once : (s.handlers.filter fun h => h.phase.pushed).length ≤ 1
  /-- At most one code waits for its delivery. -/
  single : s.buffer.length ≤ 1
  /-- A code waits for its delivery only while no handler is in flight. -/
  waiting : s.buffer ≠ [] → ∀ h ∈ s.handlers, h.phase.inFlight s.mounted = false
  /-- The camera stays paused while a handler is in flight. -/
  paused : ∀ h ∈ s.handlers, h.phase.inFlight s.mounted = true → s.resumed = false

/-- What an action leaves alone stays as it is. -/
theorem Paused.congr {s t : State} (hs : Paused s) (hhandlers : t.handlers = s.handlers)
    (hmounted : t.mounted = s.mounted) (hbuffer : t.buffer = s.buffer)
    (hresumed : t.resumed = s.resumed) : Paused t := by
  obtain ⟨halone, honce, hsingle, hwaiting, hpaused⟩ := hs
  rw [← hmounted] at halone hwaiting hpaused
  rw [← hhandlers] at halone honce hwaiting hpaused
  rw [← hbuffer] at hsingle hwaiting
  rw [← hresumed] at hpaused
  exact ⟨halone, honce, hsingle, hwaiting, hpaused⟩

/-- The handler in flight takes another phase. -/
theorem Paused.setPhase {s t : State} {i : ℕ} {h : Handler} {p : Phase} (hs : Paused s)
    (hget : s.handlers[i]? = some h) (hflight : h.phase.inFlight s.mounted = true)
    (hp : p.pushed = true → s.mounted = true)
    (ht : t.handlers = s.handlers.set i { h with phase := p }) (hmounted : t.mounted = s.mounted)
    (hbuffer : t.buffer = s.buffer)
    (hresumed : p.inFlight s.mounted = true → t.resumed = s.resumed) : Paused t := by
  obtain ⟨before, hbefore, rfl⟩ := exists_last hs.alone hget hflight
  have hmem : h ∈ s.handlers := List.mem_of_getElem? hget
  have hset : t.handlers = before ++ [{ h with phase := p }] := by
    rw [ht, hbefore]
    simp
  have hempty : t.buffer = [] := by
    by_contra hne
    rw [hbuffer] at hne
    have hidle := hs.waiting hne h hmem
    rw [hflight] at hidle
    cases hidle
  have hpairs := hs.alone
  rw [hbefore, List.pairwise_append] at hpairs
  obtain ⟨halone, _, hidle⟩ := hpairs
  have hidle' : ∀ h' ∈ before, h'.phase.inFlight s.mounted = false :=
    fun h' hh' => hidle h' hh' h (List.mem_singleton_self _)
  constructor
  · rw [hset, hmounted, List.pairwise_append]
    exact ⟨halone, List.pairwise_singleton _ _, fun h' hh' _ _ => hidle' h' hh'⟩
  · have honce := hs.once
    rw [hbefore, List.filter_append, List.length_append] at honce
    rw [hset, List.filter_append, List.length_append]
    by_cases hpushed : p.pushed = true
    · -- an earlier navigation would still be pending
      have hnone : before.filter (fun h => h.phase.pushed) = [] := by
        rw [List.filter_eq_nil_iff]
        intro h' hh' hpushed'
        have hnot := hidle' h' hh'
        rw [hp hpushed, Phase.inFlight_of_pushed hpushed'] at hnot
        cases hnot
      simp [hnone, hpushed]
    · simp [hpushed]
      omega
  · simp [hempty]
  · exact fun hne => absurd hempty hne
  · intro h' hh' hflight'
    rw [hset] at hh'
    rw [hmounted] at hflight'
    rcases List.mem_append.mp hh' with hh' | hh'
    · rw [hidle' h' hh'] at hflight'
      cases hflight'
    · rw [List.mem_singleton.mp hh'] at hflight'
      rw [hresumed hflight']
      exact hs.paused h hmem hflight

/-- A dismissed dialog leaves no handler in flight. -/
theorem paused_dismissed {s t : State} {i : ℕ} (h : s.dismissed i = some t) (hs : Paused s) :
    Paused t := by
  obtain ⟨h, registered, hget, hphase, rfl⟩ := dismissed_eq_some h
  refine hs.setPhase (p := .ended registered) hget (by rw [hphase]; rfl) ?_ rfl rfl rfl ?_
  · intro hpushed
    cases hpushed
  · intro hflight
    cases hflight

/-- A call that takes effect leaves the camera as all calls will leave it. -/
theorem resumed_takeEffect {s : State} {call : CameraCall} {calls : List CameraCall}
    (hcalls : s.calls = call :: calls) :
    State.resumed { s with camera := call = .resumeCamera, calls := calls } = s.resumed := by
  rw [State.resumed, State.resumed, hcalls]
  cases calls with
  | nil => rfl
  | cons call' rest =>
    obtain ⟨last, hlast⟩ : ∃ last, (call' :: rest).getLast? = some last := ⟨_, List.getLast?_cons⟩
    rw [List.getLast?_cons_cons, hlast]
    rfl

/-- A code is recognised in time only while no handler is in flight. -/
theorem Paused.recognise {s : State} {code : String} (hs : Paused s) (hcamera : s.camera = true)
    (hcalls : s.calls = []) (hbuffer : s.buffer = []) :
    Paused { s with buffer := s.buffer ++ [code] } := by
  have hresumed : s.resumed = true := by simp [State.resumed, hcalls, hcamera]
  have hidle : ∀ h ∈ s.handlers, h.phase.inFlight s.mounted = false := by
    intro h hh
    by_contra hflight
    rw [Bool.not_eq_false] at hflight
    rw [hs.paused h hh hflight] at hresumed
    cases hresumed
  refine ⟨hs.alone, hs.once, by simp [hbuffer], fun _ => hidle, ?_⟩
  intro h hh hflight
  have hnot := hidle h hh
  rw [hflight] at hnot
  cases hnot

/-- The code that waits for its delivery is taken up while no handler is in flight. -/
theorem Paused.deliver {s : State} {code : String} {buffer : List String} (hs : Paused s)
    (hbuffer : s.buffer = code :: buffer) :
    Paused { s with
      buffer := buffer
      handlers := s.handlers ++ [⟨code, .isControlloPresente⟩]
      calls := s.calls ++ [.pauseCamera] } := by
  have hidle := hs.waiting (by simp [hbuffer])
  have hrest : buffer = [] := by
    have hsingle := hs.single
    rw [hbuffer, List.length_cons] at hsingle
    exact List.length_eq_zero_iff.mp (by omega)
  subst hrest
  refine ⟨?_, ?_, by simp, fun hne => absurd rfl hne, ?_⟩
  · rw [List.pairwise_append]
    exact ⟨hs.alone, List.pairwise_singleton _ _, fun h hh _ _ => hidle h hh⟩
  · rw [List.filter_append]
    simpa [Phase.pushed] using hs.once
  · intro _ _ _
    simp [State.resumed]

/-- A disposed screen has no navigation in flight. -/
theorem Paused.dispose {s : State} (hs : Paused s) : Paused { s with mounted := false } := by
  refine ⟨hs.alone.imp Phase.inFlight_disposed, hs.once, hs.single, ?_, ?_⟩
  · intro hne h hh
    exact Phase.inFlight_disposed (hs.waiting hne h hh)
  · intro h hh hflight
    by_cases hidle : h.phase.inFlight s.mounted = false
    · rw [Phase.inFlight_disposed hidle] at hflight
      cases hflight
    · exact hs.paused h hh (by simpa using hidle)

/-- Every step of a run in which the camera pauses in time keeps it paused while a handler
is in flight. -/
theorem Paused.step {s t : State} {a : Action} (hs : Paused s) (htimely : Timely s a)
    (hstep : step s a = some t) : Paused t := by
  cases a with
  | recognise code =>
    simp only [Scanner.step, Option.ite_none_right_eq_some, Option.some.injEq] at hstep
    obtain ⟨⟨hcamera, _⟩, rfl⟩ := hstep
    exact hs.recognise hcamera htimely.1 htimely.2
  | takeEffect =>
    simp only [Scanner.step] at hstep
    split at hstep
    · cases hstep
    · rename_i call calls hcalls
      cases hstep
      exact hs.congr rfl rfl rfl (resumed_takeEffect hcalls)
  | deliver =>
    simp only [Scanner.step] at hstep
    split at hstep
    · cases hstep
    · rename_i code buffer hbuffer
      cases hstep
      exact hs.deliver hbuffer
  | isControlloPresente i o b =>
    simp only [Scanner.step, Option.bind_eq_some_iff, Option.ite_none_right_eq_some] at hstep
    obtain ⟨h, hget, hphase, hstep⟩ := hstep
    have hflight : h.phase.inFlight s.mounted = true := by rw [hphase]; rfl
    split_ifs at hstep
    all_goals
      cases hstep
      exact hs.setPhase hget hflight (fun hpushed => by cases hpushed) rfl rfl rfl fun _ => rfl
  | getControllo i o b =>
    simp only [Scanner.step, Option.bind_eq_some_iff, Option.ite_none_right_eq_some] at hstep
    obtain ⟨h, hget, hphase, hstep⟩ := hstep
    have hflight : h.phase.inFlight s.mounted = true := by rw [hphase]; rfl
    split at hstep
    · rename_i c _ hmounted
      obtain ⟨routes, rfl⟩ := replaceTop_of_alone hs.alone hget hphase hstep
      exact hs.setPhase (p := .pushReplacement c) hget hflight (fun _ => hmounted) rfl rfl rfl
        fun _ => rfl
    · cases hstep
      exact hs.setPhase hget hflight (fun hpushed => by cases hpushed) rfl rfl rfl fun _ => rfl
  | pop =>
    simp only [Scanner.step] at hstep
    split at hstep
    · cases hstep
    · exact paused_dismissed hstep (hs.congr rfl rfl rfl rfl)
    · cases hstep
      exact hs.congr rfl rfl rfl rfl
  | si =>
    simp only [Scanner.step] at hstep
    split at hstep
    · rcases replaceTop_eq_some hstep with ⟨routes, rfl⟩ | ⟨j, routes, hdismissed⟩
      · exact hs.congr rfl rfl rfl rfl
      · exact paused_dismissed hdismissed (hs.congr rfl rfl rfl rfl)
    · cases hstep
  | openRoute =>
    simp only [Scanner.step] at hstep
    split at hstep
    · cases hstep
      exact hs.congr rfl rfl rfl rfl
    · cases hstep
      exact hs.congr rfl rfl rfl rfl
    · cases hstep
  | dispose =>
    simp only [Scanner.step, Option.ite_none_right_eq_some, Option.some.injEq] at hstep
    obtain ⟨_, rfl⟩ := hstep
    exact hs.dispose

/-- In a run in which a code is recognised only after every call to the camera has taken
effect, the camera stays paused while a handler is in flight. -/
theorem paused_of_timely {hist : List (State × Action)} {s : State}
    (hrun : Run step State.start hist s) (htimely : Steps Timely hist) : Always Paused hist s := by
  refine hrun.always_of_steps htimely ?_ ?_
  · exact ⟨List.Pairwise.nil, by simp [State.start], by simp [State.start],
      fun hne => absurd rfl hne, by simp [State.start]⟩
  · intro s a t hs hgood hstep
    exact hs.step hgood hstep

/-! ## Runs -/

/-- **One navigation per scan.** In every run of a scanner screen, at most one navigation is
made, for the first code delivered that is registered, and nothing is started while a
lookup, a dialog or a navigation is pending, in every state exactly if every step is
clear. Where a code is recognised only after every call to the camera has taken effect, at
most one navigation is made and nothing is started meanwhile. -/
theorem one_navigation_iff {hist : List (State × Action)} {s : State}
    (hrun : Run step State.start hist s) :
    (Always Safe hist s ↔ Steps Clear hist) ∧ (Steps Timely hist → Always Paused hist s) := by
  refine ⟨?_, paused_of_timely hrun⟩
  refine hrun.always_iff (fun _ => True) trivial (fun _ _ _ _ _ => trivial) ?_ ?_
  · exact safe_iff.mpr List.Pairwise.nil
  · intro s a t _ hs hstep
    exact safe_step_iff hs hstep

/-- The document of a machine. -/
def machine (code : String) : MapLiteral :=
  [("codice", .str code), ("tipo", .str "Forni"), ("periodo", .str "Annuale"),
    ("descrizione", .str "Pulizia"), ("dataUltimo", .str "2022-01-15"),
    ("dataProssimo", .str "2023-01-15")]

/-- The remote state with two machines. -/
def twoMachines : Backend :=
  { Backend.empty with controlli := setDoc ["M2"] (machine "M2") (setDoc ["M1"] (machine "M1") ∅) }

/-- A code is scanned, and no other one before the camera is paused. -/
def scanOne : List Action :=
  [.recognise "M1", .deliver, .takeEffect, .isControlloPresente 0 .success twoMachines,
    .getControllo 0 .success twoMachines, .pop, .dispose]

/-- Two codes are recognised before the pause takes effect. -/
def scanTwo : List Action :=
  [.recognise "M1", .recognise "M2", .deliver, .deliver, .takeEffect,
    .isControlloPresente 0 .success twoMachines, .isControlloPresente 1 .success twoMachines,
    .getControllo 1 .success twoMachines, .getControllo 0 .success twoMachines]

/-- One code leads to one navigation, and the camera stays paused meanwhile. -/
theorem one_navigation_iff_scanOne :
    Always Safe ((exec step [] State.start scanOne).get (by decide +kernel)).1
        ((exec step [] State.start scanOne).get (by decide +kernel)).2 ∧
      Always Paused ((exec step [] State.start scanOne).get (by decide +kernel)).1
        ((exec step [] State.start scanOne).get (by decide +kernel)).2 := by
  obtain ⟨hsafe, hpaused⟩ := one_navigation_iff
    (run_get (show (exec step [] State.start scanOne).isSome by decide +kernel))
  exact ⟨hsafe.mpr (by unfold Steps; decide +kernel), hpaused (by unfold Steps; decide +kernel)⟩

/-- Two codes lead to two navigations, and the second one delivered comes first. -/
theorem two_navigations :
    ((exec step [] State.start scanTwo).map fun r => (decide (Safe r.2),
      r.2.handlers.map fun h => (h.code, h.phase.pushed), r.2.routes.length)) =
        some (false, [("M1", true), ("M2", true)], 1) := by
  decide +kernel

end Scanner

end EthosApp
