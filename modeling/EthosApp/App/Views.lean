import EthosApp.App.Guarantees
import EthosApp.Screens.ShowControl

/-!
# What the pages show

A page keeps the records that it was opened with or has loaded, while other clients go on. It
may show what is no longer stored, but never what was not stored at some moment: its records
are those of machines of the registry after an earlier part of the run. The sheet of a page is
looked up when it is tapped, so that it is the last one that was stored.
-/

namespace EthosApp

open Dart Firestore DocStore Runs

/-- A record that is decoded of a stored document is that of a registered machine, whose code
is no path. -/
theorem Represents.exists_machine {zone : Zone} {A : Registry} {b : Backend} {x : Controllo}
    (hb : Represents zone A b) (hx : App.Decoded b x) :
    ∃ code m h, (A code).machine = some m ∧ x = (m.record code).atHour h ∧
      docPath code = some [code] := by
  obtain ⟨p, d, h, hdoc, hdecode⟩ := hx
  obtain ⟨code, m, rfl, hm, rfl⟩ := hb.lookup_iff.mp hdoc
  obtain ⟨hpath, hyears⟩ := hb.plain code m hm
  have hrecord := (Machine.holds hyears).fromSnapshot h
  exact ⟨code, m, h, hm, Option.some.inj (hdecode.symm.trans hrecord), hpath⟩

namespace App

variable {zone : Zone} {signedIn : ℕ → Bool} {hist : List (State × Event)} {s : State}

/-- A record was stored in a state that the run passed through. -/
def Seen (zone : Zone) (signedIn : ℕ → Bool) (hist : List (State × Event)) (x : Controllo) : Prop :=
  ∃ older u, older <:+ hist ∧ Run (step zone) (State.start signedIn) older u ∧ Decoded u.backend x

/-- What was seen is seen in every longer run. -/
theorem Seen.cons {x : Controllo} (hx : Seen zone signedIn hist x) (e : State × Event) :
    Seen zone signedIn (e :: hist) x := by
  obtain ⟨older, u, holder, hrun, hdecoded⟩ := hx
  exact ⟨older, u, holder.trans (List.suffix_cons e hist), hrun, hdecoded⟩

/-- The pages of a client after an action show what was seen, or what is stored now. -/
theorem StoreSpec.seen {b b' : Backend} {c c' : Client} {a : Action} {P : Controllo → Prop}
    (hstore : StoreSpec zone b c a c' b') (hold : ∀ p ∈ c.stack, ∀ x ∈ p.held, P x)
    (hnow : ∀ x, Decoded b x → P x) : ∀ p ∈ c'.stack, ∀ x ∈ p.held, P x := by
  intro p hp x hx
  cases hstore with
  | read _ hheld =>
    rcases hheld p hp x hx with ⟨q, hq, hx⟩ | hx
    · exact hold q hq x hx
    · exact hnow x hx
  | confirm _ _ _ _ hheld =>
    rcases hheld p hp with hp | hnone
    · exact hold p hp x hx
    · rw [hnone] at hx
      cases hx

/-- Every record that a page shows was seen. -/
theorem seen_of_run (hrun : Run (step zone) (State.start signedIn) hist s) (i : ℕ) :
    ∀ p ∈ (s.clients i).stack, ∀ x ∈ p.held, Seen zone signedIn hist x := by
  induction hrun generalizing i with
  | nil => simp [State.start, Page.held]
  | @snoc hist s t e hbefore hlast ih =>
    obtain ⟨⟨c', b'⟩, hr, rfl⟩ := Option.map_eq_some_iff.mp hlast
    refine forall_update (P := fun p => ∀ x ∈ p.held, Seen zone signedIn ((s, e) :: hist) x)
      (fun j p hp x hx => (ih j p hp x hx).cons _) ?_ i
    refine (clientStep_spec hr).store.seen (fun p hp x hx => (ih e.client p hp x hx).cons _) ?_
    exact fun x hx => ⟨hist, s, List.suffix_cons _ hist, hbefore, hx⟩

/-- A part of a run of plain events has plain events. -/
theorem plain_of_suffix {older : List (State × Event)} (holder : older <:+ hist)
    (hplain : ∀ e ∈ eventLog zone hist, EthosApp.Event.Plain e) :
    ∀ e ∈ eventLog zone older, EthosApp.Event.Plain e := by
  intro e he
  obtain ⟨x, hx, he⟩ := List.mem_flatMap.mp he
  exact hplain e (List.mem_flatMap.mpr ⟨x, holder.subset hx, he⟩)

/-- A record that was seen is that of a machine of the registry after a part of the run. -/
theorem Seen.exists_machine {x : Controllo} (hx : Seen zone signedIn hist x)
    (hplain : ∀ e ∈ eventLog zone hist, EthosApp.Event.Plain e) :
    ∃ older, older <:+ hist ∧ ∃ code m h,
      (Registry.empty.replay (eventLog zone older) code).machine = some m ∧
        x = (m.record code).atHour h ∧ docPath code = some [code] := by
  obtain ⟨older, u, holder, hrun, hdecoded⟩ := hx
  have hrep := represents_of_run hrun (plain_of_suffix holder hplain)
  exact ⟨older, holder, hrep.exists_machine hdecoded⟩

/-- **Pages show what was stored.** After every run of any number of clients whose codes are no
paths and whose dates have years of four digits, every record that a page of a client shows,
lists, edits or checks is that of a machine that was registered at some moment of the run, as
it was then. -/
theorem held_of_run (hrun : Run (step zone) (State.start signedIn) hist s)
    (hplain : ∀ e ∈ eventLog zone hist, EthosApp.Event.Plain e) {i : ℕ} {p : Page}
    (hp : p ∈ (s.clients i).stack) {x : Controllo} (hx : x ∈ p.held) :
    ∃ older, older <:+ hist ∧ ∃ code m h,
      (Registry.empty.replay (eventLog zone older) code).machine = some m ∧
        x = (m.record code).atHour h := by
  obtain ⟨older, holder, code, m, h, hm, hx, _⟩ :=
    (seen_of_run hrun i p hp x hx).exists_machine hplain
  exact ⟨older, holder, code, m, h, hm, hx⟩

/-- The second client shows records on its pages. -/
theorem held_of_run_two :
    ((runTwoClients.get runTwoClients_isSome).2.clients 1).stack.flatMap Page.held ≠ [] ∧
      ∀ p ∈ ((runTwoClients.get runTwoClients_isSome).2.clients 1).stack, ∀ x ∈ p.held,
        ∃ older, older <:+ (runTwoClients.get runTwoClients_isSome).1 ∧ ∃ code m h,
          (Registry.empty.replay
            (eventLog (Zone.fixed 3600 Zone.hour_lt_day) older) code).machine = some m ∧
            x = (m.record code).atHour h :=
  ⟨by decide +kernel, fun _ hp _ hx =>
    held_of_run (run_get runTwoClients_isSome) (by decide +kernel) hp hx⟩

/-- **The page of a machine.** After every such run, the page of a machine shows the texts of
the machine as it was registered at some moment of the run, and a tap on its sheet opens a file
exactly if it is the last one that was stored for the code until now, and both steps succeed. -/
theorem view_of_run (hrun : Run (step zone) (State.start signedIn) hist s)
    (hplain : ∀ e ∈ eventLog zone hist, EthosApp.Event.Plain e) {i : ℕ} {x : Controllo}
    (hp : .controlView x ∈ (s.clients i).stack) :
    ∃ older, older <:+ hist ∧ ∃ code m,
      (Registry.empty.replay (eventLog zone older) code).machine = some m ∧
      ControlView.initState x = ControlView.initState (m.record code) ∧
      ∀ oUrl oLaunch file, (ControlView.initState x).onTap oUrl oLaunch s.backend = .launch file ↔
        oUrl = .success ∧ oLaunch = .success ∧
          (Registry.empty.replay (eventLog zone hist) code).sheet = some file := by
  obtain ⟨older, holder, code, m, h, hm, rfl, hpath⟩ :=
    (seen_of_run hrun i _ hp x List.mem_cons_self).exists_machine hplain
  refine ⟨older, holder, code, m, hm, rfl, ?_⟩
  intro oUrl oLaunch file
  have hsheet := (represents_of_run hrun hplain).storage code
  rw [segments_of_docPath hpath, Registry.sheet] at hsheet
  rw [ControlView.onTap_eq_launch, ← hsheet]
  rfl

/-- The second client has the page of a machine on its stack. -/
theorem view_of_run_two :
    ∃ x, .controlView x ∈ ((runTwoClients.get runTwoClients_isSome).2.clients 1).stack ∧
      ∃ older, older <:+ (runTwoClients.get runTwoClients_isSome).1 ∧ ∃ code m,
        (Registry.empty.replay
          (eventLog (Zone.fixed 3600 Zone.hour_lt_day) older) code).machine = some m ∧
        ControlView.initState x = ControlView.initState (m.record code) := by
  have hfound : (((runTwoClients.get runTwoClients_isSome).2.clients 1).stack.find? fun p =>
      p.route = .controlView).isSome := by decide +kernel
  obtain ⟨p, hp⟩ := Option.isSome_iff_exists.mp hfound
  have hroute := List.find?_some hp
  rw [decide_eq_true_eq] at hroute
  obtain ⟨x, rfl⟩ : ∃ x, p = .controlView x := by
    cases p with
    | controlView x => exact ⟨x, rfl⟩
    | _ => cases hroute
  have hmem := List.mem_of_find?_eq_some hp
  obtain ⟨older, holder, code, m, hm, hview, _⟩ :=
    view_of_run (run_get runTwoClients_isSome) (by decide +kernel) hmem
  exact ⟨x, hmem, older, holder, code, m, hm, hview⟩

end App

end EthosApp
