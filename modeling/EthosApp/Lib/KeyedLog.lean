import EthosApp.Lib.Runs
import Mathlib.Data.List.Basic
import Mathlib.Logic.Function.Basic

/-!
# Logs of events on keyed components

A state assigns a component to every key, and an event changes the component of one key.
The replay of a log treats the keys apart: the component of a key is what its own events
make of it. A system whose steps record events refines the replay of its log if one step
does what the replay of its events does.
-/

namespace KeyedLog

open Runs

variable {K V E σ α : Type*} [DecidableEq K]

/-- The state after an event on one key. -/
def update (apply : E → V → V) (e : K × E) (A : K → V) : K → V :=
  Function.update A e.1 (apply e.2 (A e.1))

/-- The state after a log of events, newest first. -/
def replay (apply : E → V → V) (log : List (K × E)) (A : K → V) : K → V :=
  log.foldr (update apply) A

/-- The events of one key, newest first. -/
def history (k : K) (log : List (K × E)) : List E := (log.filter fun e => e.1 = k).map Prod.snd

/-- An event leaves the other components alone. -/
theorem update_of_ne (apply : E → V → V) {e : K × E} {k : K} (hne : k ≠ e.1) (A : K → V) :
    update apply e A k = A k := Function.update_of_ne hne _ _

/-- The newest event of a log comes last. -/
@[simp] theorem replay_cons (apply : E → V → V) (e : K × E) (log : List (K × E)) (A : K → V) :
    replay apply (e :: log) A = update apply e (replay apply log A) := rfl

/-- A log is replayed after the older one. -/
theorem replay_append (apply : E → V → V) (log log' : List (K × E)) (A : K → V) :
    replay apply (log ++ log') A = replay apply log (replay apply log' A) := List.foldr_append

/-- **The keys are replayed apart.** The component of a key is what the events of the key
make of it. -/
theorem replay_apply (apply : E → V → V) (log : List (K × E)) (A : K → V) (k : K) :
    replay apply log A k = (history k log).foldr apply (A k) := by
  induction log with
  | nil => rfl
  | cons e log ih =>
    rw [replay_cons]
    by_cases hk : e.1 = k
    · subst hk
      rw [update, Function.update_self, ih]
      simp [history]
    · rw [update_of_ne apply (Ne.symm hk), ih]
      simp [history, hk]

/-- **The last write wins.** A part of a component that every event sets or leaves alone is
what the newest event of the key that sets it says. -/
theorem part_replay {β : Type*} {apply : E → V → V} (part : V → β) (sets : E → Option β)
    (hsets : ∀ e a, part (apply e a) = (sets e).getD (part a)) (log : List (K × E)) (A : K → V)
    (k : K) :
    part (replay apply log A k) = ((history k log).findSome? sets).getD (part (A k)) := by
  rw [replay_apply]
  induction history k log with
  | nil => rfl
  | cons e events ih =>
    rw [List.foldr_cons, hsets, ih, List.findSome?_cons]
    cases sets e <;> rfl

/-- The events that the steps of a run record, newest first. -/
def log (events : σ → α → List (K × E)) (hist : List (σ × α)) : List (K × E) :=
  hist.flatMap fun e => events e.1 e.2

/-- **Refinement of the replay.** If one step of a kind does to the represented components
what the replay of its events does, then after every run of such steps the state represents
the replay of the log of the run. -/
theorem represents_replay {step : σ → α → Option σ} {start : σ} {apply : E → V → V}
    {events : σ → α → List (K × E)} {Represents : (K → V) → σ → Prop} {Good : σ → α → Prop}
    {A : K → V} {hist : List (σ × α)} {t : σ} (hrun : Run step start hist t)
    (hgood : Steps Good hist) (hstart : Represents A start)
    (hstep : ∀ B s a t, Represents B s → Good s a → step s a = some t →
      Represents (replay apply (events s a) B) t) :
    Represents (replay apply (log events hist) A) t := by
  induction hrun with
  | nil => exact hstart
  | snoc _ hlast ih =>
    obtain ⟨hlastGood, hbefore⟩ := steps_cons.mp hgood
    rw [log, List.flatMap_cons, replay_append]
    exact hstep _ _ _ _ (ih hbefore) hlastGood hlast

end KeyedLog
