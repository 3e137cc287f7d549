import EthosApp.Lib.Runs

/-!
# Handlers that await calls

A handler makes a sequence of calls to a service. It awaits a call, so that a failure
ends the handler, or it starts a call and goes on. The started calls are answered in any
order, while the handler runs or after it has ended. Where every started call commutes
with the calls made later, the order of the answers does not matter: the handler ends as
if each call had been answered at once.
-/

namespace Futures

open Runs

variable {κ σ : Type*}

/-- What is left of a handler. -/
inductive Handler (κ : Type*)
  | done
  | thrown
  | await (call : κ) (next : Handler κ)
  | start (call : κ) (next : Handler κ)
  deriving DecidableEq

namespace Handler

/-- The calls that a handler may still make. -/
def calls : Handler κ → List κ
  | done => []
  | thrown => []
  | await call next => call :: next.calls
  | start call next => call :: next.calls

/-- The calls that a handler may still start without awaiting them. -/
def started : Handler κ → List κ
  | done => []
  | thrown => []
  | await _ next => next.started
  | start call next => call :: next.started

/-- A handler whose calls are answered as they are made. The flag tells whether it ends
without an exception. -/
def run (answer : κ → σ → Bool × σ) : Handler κ → σ → Bool × σ
  | done, s => (true, s)
  | thrown, s => (false, s)
  | await call next, s =>
    if (answer call s).1 then next.run answer (answer call s).2 else (false, (answer call s).2)
  | start call next, s => next.run answer (answer call s).2

/-- Run to the next awaited call, or to the end. The started calls become pending. -/
def advance : List κ → Handler κ → Handler κ × List κ
  | pending, start call next => next.advance (pending ++ [call])
  | pending, done => (done, pending)
  | pending, thrown => (thrown, pending)
  | pending, await call next => (await call next, pending)

end Handler

/-- Advancing moves started calls to the pending ones. -/
theorem Handler.advance_started (h : Handler κ) (pending : List κ) :
    (h.advance pending).2 ++ (h.advance pending).1.started = pending ++ h.started := by
  induction h generalizing pending with
  | done => rfl
  | thrown => rfl
  | await call next => rfl
  | start call next ih => rw [advance, ih, started, List.append_assoc, List.singleton_append]

/-- Two calls may be answered in either order. -/
def Commute (answer : κ → σ → Bool × σ) (c d : κ) : Prop :=
  ∀ s, (answer d (answer c s).2).1 = (answer d s).1 ∧
    (answer d (answer c s).2).2 = (answer c (answer d s).2).2

/-- Every started call commutes with the calls made later. -/
def Handler.Commutes (answer : κ → σ → Bool × σ) : Handler κ → Prop
  | done => True
  | thrown => True
  | await _ next => next.Commutes answer
  | start call next => (∀ d ∈ next.calls, Commute answer call d) ∧ next.Commutes answer

/-- A handler under way. -/
structure State (κ σ : Type*) where
  /-- What is left of the handler: it awaits a call or has ended. -/
  handler : Handler κ
  /-- The started calls that have not been answered, oldest first. -/
  pending : List κ
  /-- The state of the service. -/
  service : σ

/-- A handler that runs up to its first awaited call. -/
def State.start (h : Handler κ) (s : σ) : State κ σ := ⟨(h.advance []).1, (h.advance []).2, s⟩

/-- An answer of the service. -/
inductive Answer
  | awaited
  | pending (i : ℕ)

/-- One answer, and what the handler does until it awaits the next call. -/
def step (answer : κ → σ → Bool × σ) (s : State κ σ) : Answer → Option (State κ σ)
  | .awaited =>
    match s.handler with
    | .await call next =>
      let (normal, service) := answer call s.service
      let h := if normal then next else .thrown
      some ⟨(h.advance s.pending).1, (h.advance s.pending).2, service⟩
    | _ => none
  | .pending i =>
    (s.pending[i]?).map fun call =>
      { s with pending := s.pending.eraseIdx i, service := (answer call s.service).2 }

/-- Whether a handler has ended. -/
def State.Ended (s : State κ σ) : Prop := s.handler = .done ∨ s.handler = .thrown

section Confluence

variable {answer : κ → σ → Bool × σ}

/-- The service after all pending calls have been answered. -/
def settle (answer : κ → σ → Bool × σ) (pending : List κ) (s : σ) : σ :=
  pending.foldl (fun s call => (answer call s).2) s

/-- A call that commutes with the pending ones is answered alike before and after them. -/
theorem answer_settle {c : κ} {pending : List κ} (hcomm : ∀ d ∈ pending, Commute answer d c)
    (s : σ) : (answer c (settle answer pending s)).1 = (answer c s).1 ∧
      (answer c (settle answer pending s)).2 = settle answer pending (answer c s).2 := by
  induction pending generalizing s with
  | nil => exact ⟨rfl, rfl⟩
  | cons d pending ih =>
    obtain ⟨hnormal, hservice⟩ := hcomm d List.mem_cons_self s
    obtain ⟨hfirst, hsecond⟩ := ih (fun d' hd' => hcomm d' (List.mem_cons_of_mem _ hd'))
      (answer d s).2
    refine ⟨hfirst.trans hnormal, ?_⟩
    rw [settle, List.foldl_cons] at *
    refine hsecond.trans ?_
    rw [hservice]
    rfl

/-- Advancing makes no difference to the run of a handler over its pending calls. -/
theorem run_advance (h : Handler κ) (pending : List κ) (s : σ) :
    (h.advance pending).1.run answer (settle answer (h.advance pending).2 s) =
      h.run answer (settle answer pending s) := by
  induction h generalizing pending with
  | done => rfl
  | thrown => rfl
  | await call next => rfl
  | start call next ih =>
    rw [Handler.advance, ih, Handler.run, settle, List.foldl_append]
    rfl

/-- The calls that matter commute: the pending ones with each other and with the calls
still to be made. -/
structure Ordered (answer : κ → σ → Bool × σ) (h : Handler κ) (pending : List κ) : Prop where
  /-- The pending calls commute. -/
  pairwise : pending.Pairwise (Commute answer)
  /-- The pending calls commute with the later ones. -/
  later : ∀ c ∈ pending, ∀ d ∈ h.calls, Commute answer c d
  /-- So do the calls still to be started. -/
  commutes : h.Commutes answer

/-- Advancing keeps the calls in order. -/
theorem Ordered.advance {h : Handler κ} {pending : List κ} (hordered : Ordered answer h pending) :
    Ordered answer (h.advance pending).1 (h.advance pending).2 := by
  induction h generalizing pending with
  | done => exact hordered
  | thrown => exact hordered
  | await call next => exact hordered
  | start call next ih =>
    obtain ⟨hpairwise, hlater, hcall, hnext⟩ := hordered
    apply ih
    constructor
    · rw [List.pairwise_append]
      refine ⟨hpairwise, List.pairwise_singleton _ _, ?_⟩
      intro c hc d hd
      rw [List.mem_singleton.mp hd]
      exact hlater c hc call List.mem_cons_self
    · intro c hc d hd
      rcases List.mem_append.mp hc with hc | hc
      · exact hlater c hc d (List.mem_cons_of_mem _ hd)
      · rw [List.mem_singleton.mp hc]
        exact hcall d hd
    · exact hnext

/-- An answered call may be taken out of the pending ones. -/
theorem settle_eraseIdx {pending : List κ} (hpairwise : pending.Pairwise (Commute answer)) {i : ℕ}
    {c : κ} (hc : pending[i]? = some c) (s : σ) :
    settle answer (pending.eraseIdx i) (answer c s).2 = settle answer pending s := by
  induction pending generalizing i s with
  | nil => simp at hc
  | cons d pending ih =>
    obtain ⟨hd, hrest⟩ := List.pairwise_cons.mp hpairwise
    cases i with
    | zero =>
      cases hc
      rfl
    | succ i =>
      rw [List.getElem?_cons_succ] at hc
      have hcomm := (hd c (List.mem_of_getElem? hc) s).2
      have htail := ih hrest hc (answer d s).2
      rw [hcomm] at htail
      exact htail

/-- What holds of a handler under way, whatever has been answered: the rest of it ends
as the whole handler, and it awaits a call unless it has ended. -/
structure Underway (answer : κ → σ → Bool × σ) (h : Handler κ) (b : σ) (s : State κ σ) :
    Prop where
  /-- The rest of the handler ends as the whole handler. -/
  run_eq : s.handler.run answer (settle answer s.pending s.service) = h.run answer b
  /-- The pending calls may be answered in any order. -/
  ordered : Ordered answer s.handler s.pending
  /-- Only calls that the handler starts are pending. -/
  started : (s.pending ++ s.handler.started).Sublist h.started
  /-- A handler that has not ended awaits an answer. -/
  ended_or_awaits : s.Ended ∨ ∃ call next, s.handler = .await call next

/-- A handler that has advanced awaits a call unless it has ended. -/
theorem advance_ended_or_awaits (h : Handler κ) (pending : List κ) (s : σ) :
    (State.mk (h.advance pending).1 (h.advance pending).2 s).Ended ∨
      ∃ call next, (h.advance pending).1 = .await call next := by
  induction h generalizing pending with
  | done => exact Or.inl (Or.inl rfl)
  | thrown => exact Or.inl (Or.inr rfl)
  | await call next => exact Or.inr ⟨call, next, rfl⟩
  | start call next ih => exact ih (pending ++ [call])

/-- Every answer keeps the handler on its way. -/
theorem Underway.step {h : Handler κ} {b : σ} {s t : State κ σ} {a : Answer}
    (hs : Underway answer h b s) (hstep : step answer s a = some t) : Underway answer h b t := by
  obtain ⟨hrun, hordered, hstarted, hends⟩ := hs
  cases a with
  | pending i =>
    obtain ⟨call, hcall, rfl⟩ := Option.map_eq_some_iff.mp hstep
    have hsub : (s.pending.eraseIdx i).Sublist s.pending := List.eraseIdx_sublist _ _
    refine ⟨?_, ?_, (hsub.append_right _).trans hstarted, hends⟩
    · dsimp only
      rw [settle_eraseIdx hordered.pairwise hcall]
      exact hrun
    · exact ⟨hordered.pairwise.sublist hsub, fun c hc => hordered.later c (hsub.subset hc),
        hordered.commutes⟩
  | awaited =>
    obtain ⟨handler, pending, service⟩ := s
    cases handler with
    | await call next =>
      cases hstep
      dsimp only at hrun hordered
      obtain ⟨hnormal, hservice⟩ := answer_settle
        (fun d hd => hordered.later d hd call List.mem_cons_self) service
      rw [Handler.run, hnormal, hservice] at hrun
      refine ⟨?_, ?_, ?_, advance_ended_or_awaits _ _ _⟩
      · dsimp only
        rw [run_advance, ← hrun]
        split <;> rfl
      · apply Ordered.advance
        split
        · exact ⟨hordered.pairwise, fun c hc d hd =>
            hordered.later c hc d (List.mem_cons_of_mem _ hd), hordered.commutes⟩
        · exact ⟨hordered.pairwise, by simp [Handler.calls], trivial⟩
      · dsimp only
        rw [Handler.advance_started]
        split
        · exact hstarted
        · exact ((List.Sublist.refl pending).append (List.nil_sublist _)).trans hstarted
    | _ => cases hstep

/-- **The order of answers does not matter.** In every state that a handler reaches, the
rest of it ends as the whole handler does where each call is answered at once. -/
theorem underway {h : Handler κ} {b : σ} {hist : List (State κ σ × Answer)} {s : State κ σ}
    (hrun : Run (step answer) (State.start h b) hist s) (hcommutes : h.Commutes answer) :
    Underway answer h b s := by
  refine (hrun.always (I := Underway answer h b) ?_ ?_).1
  · refine ⟨run_advance h [] b, ?_, ?_, advance_ended_or_awaits h [] b⟩
    · exact Ordered.advance ⟨List.Pairwise.nil, by simp, hcommutes⟩
    · rw [State.start, h.advance_started]
      exact List.Sublist.refl _
  · intro s a t hs hstep
    exact hs.step hstep

/-- A handler that starts no call without awaiting it commutes. -/
theorem commutes_of_started {h : Handler κ} (hstarted : h.started = []) : h.Commutes answer := by
  induction h with
  | done => trivial
  | thrown => trivial
  | await call next ih => exact ih hstarted
  | start call next => cases hstarted

/-- No call is pending of a handler that starts none without awaiting it. -/
theorem Underway.pending_eq_nil {h : Handler κ} {b : σ} {s : State κ σ}
    (hs : Underway answer h b s) (hstarted : h.started = []) : s.pending = [] := by
  have hsub := hs.started
  rw [hstarted] at hsub
  exact (List.append_eq_nil_iff.mp (List.sublist_nil.mp hsub)).1

/-- A handler that has ended did so as it does where each call is answered at once. -/
theorem Underway.ended {h : Handler κ} {b : σ} {s : State κ σ} (hs : Underway answer h b s)
    (hended : s.Ended) : (s.handler = .done ↔ (h.run answer b).1 = true) ∧
      settle answer s.pending s.service = (h.run answer b).2 := by
  have hrun := hs.run_eq
  rcases hended with hdone | hthrown
  · rw [hdone, Handler.run] at hrun
    rw [hdone, ← hrun]
    simp
  · rw [hthrown, Handler.run] at hrun
    rw [hthrown, ← hrun]
    simp

end Confluence

end Futures
