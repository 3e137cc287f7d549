import EthosApp.Store.Readers

/-!
# The last write wins

What the readers return about a code is told by the newest events of the code: the machine is
what the newest form about it says, the sheet is the file that was stored last, and the check
of a day is the one that was registered last. So a form that is confirmed again changes
nothing, as long as no other form of the same code was confirmed in between.
-/

namespace EthosApp

open Dart Gregorian Firestore DocStore Runs

/-- What an event says of whether a machine is registered. -/
def Event.registers : Event → Option Bool
  | .put _ => some true
  | .remove => some false
  | _ => none

/-- The machine that an event writes. -/
def Event.machine : Event → Option Machine
  | .put m => some m
  | .change m => some m
  | _ => none

/-- The check of a day that an event writes. -/
def Event.checkOn (day : CivilDate) : Event → Option Check
  | .check day' k => if day' = day then some k else none
  | _ => none

/-- The sheet that an event leaves. -/
def Event.sheet : Event → Option (Option File)
  | .attach file => some (some file)
  | .detach => some none
  | _ => none

/-- What the events of a code, newest first, say of its machine: the newest form about it, if
the machine is registered. -/
def lastMachine (events : List Event) : Option Machine :=
  if events.findSome? Event.registers = some true then events.findSome? Event.machine else none

/-- A machine is registered under a code if the newest event that says so registers it. -/
theorem isSome_machine (events : List Event) :
    (events.foldr Event.apply Account.empty).machine.isSome ↔
      events.findSome? Event.registers = some true := by
  induction events with
  | nil => simp [Account.empty]
  | cons e events ih =>
    rw [List.foldr_cons, List.findSome?_cons]
    cases e <;> simp [Event.apply, Event.registers, ih]

/-- The machine of a code is what the newest form about it says. -/
theorem machine_eq_lastMachine (events : List Event) :
    (events.foldr Event.apply Account.empty).machine = lastMachine events := by
  induction events with
  | nil => rfl
  | cons e events ih =>
    have hregistered := isSome_machine events
    rw [lastMachine] at ih
    rw [List.foldr_cons, lastMachine, List.findSome?_cons, List.findSome?_cons]
    cases e with
    | put m => rfl
    | change m =>
      -- the change is applied exactly if there is a machine to change
      simp only [Event.apply, Event.registers, Event.machine, ← hregistered]
      cases (events.foldr Event.apply Account.empty).machine <;> rfl
    | remove => rfl
    | check day k => exact ih
    | attach file => exact ih
    | detach => exact ih

/-- The check of a code and a day is the newest one. -/
theorem checks_eq_findSome? (log : List (String × Event)) (code : String) (day : CivilDate) :
    (Registry.empty.replay log code).checks day =
      (KeyedLog.history code log).findSome? (Event.checkOn day) := by
  rw [Registry.replay, KeyedLog.part_replay (fun a : Account => a.checks day)
    fun e => (Event.checkOn day e).map some]
  · have hmap : (KeyedLog.history code log).findSome? (fun e => (Event.checkOn day e).map some) =
        ((KeyedLog.history code log).findSome? (Event.checkOn day)).map some :=
      List.map_findSome?.symm
    rw [hmap]
    cases (KeyedLog.history code log).findSome? (Event.checkOn day) <;> rfl
  · intro e a
    cases e with
    | check day' k =>
      by_cases hday : day' = day
      · subst hday
        simp [Event.apply, Event.checkOn]
      · simp [Event.apply, Event.checkOn, hday, Function.update_of_ne (Ne.symm hday)]
    | _ => rfl

namespace Confirms

/-- **The last write wins.** After every run of plain steps, the machine that is read under a
code is what the newest form about it says, its sheet is the file that was stored last, and
the register has for each day the check that was registered last. -/
theorem lastWrite_of_run {zone : Zone} {hist : List (State × Action)} {t : State}
    (hrun : Run (step zone) State.start hist t) (hplain : Steps (PlainStep zone) hist)
    {code : String} (hcode : docPath code = some [code]) :
    getControllo code t.backend =
      (lastMachine (KeyedLog.history code (eventLog zone hist))).map (Machine.record code) ∧
    t.backend.storage (child ("schede/" ++ code)) =
      ((KeyedLog.history code (eventLog zone hist)).findSome? Event.sheet).getD none ∧
    ∀ start finish rs, start ≤ finish →
      getRevisioniPerData zone (.midnight start) (.midnight finish) t.backend = some rs →
      ∀ r, (r ∈ rs ∧ r.codice = code) ↔ ∃ day k, start ≤ day ∧ day ≤ finish ∧
        (KeyedLog.history code (eventLog zone hist)).findSome? (Event.checkOn day) = some k ∧
        r = k.entry code day := by
  have hreads := (represents_run hrun hplain).readsAs
  refine ⟨?_, ?_, ?_⟩
  · rw [hreads.getControllo, Registry.find, hcode]
    simp only [Option.bind_some, Registry.record, Registry.replay]
    rw [KeyedLog.replay_apply]
    exact congrArg _ (machine_eq_lastMachine _)
  · rw [hreads.storage, segments_of_docPath hcode, Registry.sheet, Registry.replay,
      KeyedLog.part_replay Account.sheet Event.sheet]
    · rfl
    · intro e a
      cases e <;> rfl
  · intro start finish rs hrange hrs r
    obtain ⟨rs', hrs', _, hmem⟩ := hreads.getRevisioniPerData start finish hrange
    obtain rfl : rs = rs' := Option.some.inj (hrs.symm.trans hrs')
    rw [hmem]
    constructor
    · rintro ⟨⟨code', day, k, hk, hstart, hfinish, rfl⟩, rfl⟩
      exact ⟨day, k, hstart, hfinish, (checks_eq_findSome? _ _ _).symm.trans hk, rfl⟩
    · rintro ⟨day, k, hstart, hfinish, hk, rfl⟩
      exact ⟨⟨code, day, k, (checks_eq_findSome? _ _ _).trans hk, hstart, hfinish, rfl⟩, rfl⟩

/-- The first of two machines is read as its last edit left it. -/
theorem lastWrite_of_run_both :
    (getControllo "M1" (runBoth.get runBoth_isSome).2.backend).map Controllo.descrizione =
      some "Revisione" := by
  have hcode : docPath "M1" = some ["M1"] := by decide +kernel
  obtain ⟨hread, _⟩ := lastWrite_of_run (run_get runBoth_isSome) runBoth_plain hcode
  refine (congrArg (Option.map Controllo.descrizione) hread).trans ?_
  decide +kernel

end Confirms

end EthosApp
