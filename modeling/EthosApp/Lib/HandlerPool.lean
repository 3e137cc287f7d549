import EthosApp.Lib.Futures

/-!
# Handlers that share a service

Any number of handlers make their calls to one service, which answers the calls of all of
them in any order and with any outcome. A predicate of the calls of the issued handlers holds
of every call that is answered, a handler that has ended without an exception had all its
awaited calls answered normally, and a handler whose calls are answered as they are made is
one of the ways in which it can go.
-/

namespace Futures

open Runs

variable {κ σ ω : Type*}

/-- The calls that a handler awaits. -/
def Handler.awaited : Handler κ → List κ
  | done => []
  | thrown => []
  | await call next => call :: next.awaited
  | start _ next => next.awaited

/-- Advancing goes past started calls only. -/
@[simp] theorem Handler.advance_awaited (h : Handler κ) (pending : List κ) :
    (h.advance pending).1.awaited = h.awaited := by
  induction h generalizing pending with
  | start call next ih => exact ih _
  | _ => rfl

/-- Advancing moves calls to the pending ones. -/
theorem Handler.mem_advance {h : Handler κ} {pending : List κ} {c : κ}
    (hc : c ∈ (h.advance pending).2 ∨ c ∈ (h.advance pending).1.calls) :
    c ∈ pending ∨ c ∈ h.calls := by
  induction h generalizing pending with
  | start call next ih =>
    rcases ih hc with hc | hc
    · rcases List.mem_append.mp hc with hc | hc
      · exact Or.inl hc
      · rw [List.mem_singleton.mp hc]
        exact Or.inr List.mem_cons_self
    · exact Or.inr (List.mem_cons_of_mem _ hc)
  | _ => exact hc

/-- A handler among others. -/
structure Process (κ : Type*) where
  /-- The handler as it was issued. -/
  whole : Handler κ
  /-- What is left of it: it awaits a call or has ended. -/
  handler : Handler κ
  /-- The started calls that have not been answered, oldest first. -/
  pending : List κ

/-- The handlers issued so far, oldest first, and the service that they share. -/
structure Pool (κ σ : Type*) where
  /-- The handlers. -/
  processes : List (Process κ)
  /-- The state of the service. -/
  service : σ

/-- An answer of the service to a call of one handler. -/
structure Reply (ω : Type*) where
  /-- The handler. -/
  process : ℕ
  /-- Which of its calls is answered. -/
  answer : Answer
  /-- What is answered. -/
  outcome : ω

/-- A handler that runs up to its first awaited call. -/
def Process.start (h : Handler κ) : Process κ := ⟨h, (h.advance []).1, (h.advance []).2⟩

/-- A handler under way, taken by itself. -/
def Process.state (p : Process κ) (s : σ) : State κ σ := ⟨p.handler, p.pending, s⟩

/-- The call of a handler that is answered. -/
def Process.call (p : Process κ) : Answer → Option κ
  | .awaited => p.handler.awaited.head?
  | .pending i => p.pending[i]?

/-- A further handler is issued. -/
def Pool.issue (h : Handler κ) (s : Pool κ σ) : Pool κ σ :=
  { s with processes := s.processes ++ [.start h] }

/-- One answer, and what its handler does until it awaits the next call. -/
def Pool.reply (answer : ω → κ → σ → Bool × σ) (s : Pool κ σ) (r : Reply ω) :
    Option (Pool κ σ) :=
  s.processes[r.process]?.bind fun p =>
    (step (answer r.outcome) (p.state s.service) r.answer).map fun t =>
      ⟨s.processes.set r.process ⟨p.whole, t.handler, t.pending⟩, t.service⟩

/-- The call that an answer is for. -/
def Pool.call (s : Pool κ σ) (r : Reply ω) : Option κ :=
  s.processes[r.process]?.bind fun p => p.call r.answer

section Step

variable {answer : κ → σ → Bool × σ} {p : Process κ} {s : σ} {a : Answer} {t : State κ σ}

/-- An answer is for a call, and does to the service what the call does. -/
theorem Process.step_call (h : step answer (p.state s) a = some t) :
    ∃ c, p.call a = some c ∧ t.service = (answer c s).2 := by
  obtain ⟨whole, handler, pending⟩ := p
  cases a with
  | awaited =>
    cases handler with
    | await call next =>
      cases h
      exact ⟨call, rfl, rfl⟩
    | _ => cases h
  | pending i =>
    obtain ⟨call, hcall, rfl⟩ := Option.map_eq_some_iff.mp h
    exact ⟨call, hcall, rfl⟩

/-- A handler makes no other calls after an answer. -/
theorem Process.step_calls (h : step answer (p.state s) a = some t) {c : κ}
    (hc : c ∈ t.pending ∨ c ∈ t.handler.calls) : c ∈ p.pending ∨ c ∈ p.handler.calls := by
  obtain ⟨whole, handler, pending⟩ := p
  cases a with
  | awaited =>
    cases handler with
    | await call next =>
      cases h
      refine (Handler.mem_advance hc).imp_right fun hc => ?_
      split at hc
      · exact List.mem_cons_of_mem _ hc
      · cases hc
    | _ => cases h
  | pending i =>
    obtain ⟨call, hcall, rfl⟩ := Option.map_eq_some_iff.mp h
    exact hc.imp_left List.mem_of_mem_eraseIdx

/-- A handler goes past an awaited call only if it is answered normally. -/
theorem Process.step_awaited (h : step answer (p.state s) a = some t) {c : κ}
    (hc : c ∈ p.handler.awaited) :
    c ∈ t.handler.awaited ∨ t.handler = .thrown ∨ p.call a = some c ∧ (answer c s).1 = true := by
  obtain ⟨whole, handler, pending⟩ := p
  cases a with
  | awaited =>
    cases handler with
    | await call next =>
      cases h
      rw [Handler.advance_awaited]
      by_cases hnormal : (answer call s).1 = true
      · rcases List.mem_cons.mp hc with rfl | hc
        · exact Or.inr (Or.inr ⟨rfl, hnormal⟩)
        · exact Or.inl (by simpa [Process.state, hnormal] using hc)
      · exact Or.inr (Or.inl (by simp [Process.state, hnormal, Handler.advance]))
    | _ => cases h
  | pending i =>
    obtain ⟨call, hcall, rfl⟩ := Option.map_eq_some_iff.mp h
    exact Or.inl hc

/-- A handler that has ended stays so. -/
theorem Process.step_thrown (h : step answer (p.state s) a = some t)
    (hthrown : p.handler = .thrown) : t.handler = .thrown := by
  obtain ⟨whole, handler, pending⟩ := p
  cases hthrown
  cases a with
  | awaited => cases h
  | pending i =>
    obtain ⟨call, hcall, rfl⟩ := Option.map_eq_some_iff.mp h
    rfl

end Step

section Pool

variable {answer : ω → κ → σ → Bool × σ} {s t : Pool κ σ} {r : Reply ω} {P Q : κ → Prop}

/-- An answer to one handler of a pool. -/
theorem Pool.reply_eq_some : s.reply answer r = some t ↔ ∃ p u, s.processes[r.process]? = some p ∧
    step (answer r.outcome) (p.state s.service) r.answer = some u ∧
    t = ⟨s.processes.set r.process ⟨p.whole, u.handler, u.pending⟩, u.service⟩ := by
  simp only [Pool.reply, Option.bind_eq_some_iff, Option.map_eq_some_iff]
  constructor
  · rintro ⟨p, hp, u, hu, rfl⟩
    exact ⟨p, u, hp, hu, rfl⟩
  · rintro ⟨p, u, hp, hu, rfl⟩
    exact ⟨p, hp, u, hu, rfl⟩

/-- An answer is for a call, and does to the service what the call does. -/
theorem Pool.reply_call (h : s.reply answer r = some t) :
    ∃ c, s.call r = some c ∧ t.service = (answer r.outcome c s.service).2 := by
  obtain ⟨p, u, hp, hu, rfl⟩ := Pool.reply_eq_some.mp h
  obtain ⟨c, hc, hservice⟩ := p.step_call hu
  exact ⟨c, by simp [Pool.call, hp, hc], hservice⟩

/-- A property of all calls that are pending or may still be made. -/
def Pool.Calls (P : κ → Prop) (s : Pool κ σ) : Prop :=
  ∀ p ∈ s.processes, ∀ c, c ∈ p.pending ∨ c ∈ p.handler.calls → P c

/-- A call that a handler awaits is one that it may make. -/
theorem Handler.awaited_subset (h : Handler κ) : h.awaited ⊆ h.calls := by
  induction h with
  | done => exact fun _ hc => hc
  | thrown => exact fun _ hc => hc
  | await call next ih => exact List.cons_subset_cons call ih
  | start call next ih => exact List.subset_cons_of_subset call ih

/-- The property holds of a call that is answered. -/
theorem Pool.Calls.of_call (hs : s.Calls P) {c : κ} (hc : s.call r = some c) : P c := by
  obtain ⟨p, hp, hcall⟩ := Option.bind_eq_some_iff.mp hc
  refine hs p (List.mem_of_getElem? hp) c ?_
  cases ha : r.answer with
  | awaited =>
    rw [ha] at hcall
    exact Or.inr (p.handler.awaited_subset (List.mem_of_head? hcall))
  | pending i =>
    rw [ha] at hcall
    exact Or.inl (List.mem_of_getElem? hcall)

/-- An answer keeps the property of the calls. -/
theorem Pool.Calls.reply (hs : s.Calls P) (h : s.reply answer r = some t) : t.Calls P := by
  obtain ⟨p, u, hp, hu, rfl⟩ := Pool.reply_eq_some.mp h
  intro q hq c hc
  rcases List.mem_or_eq_of_mem_set hq with hq | rfl
  · exact hs q hq c hc
  · exact hs p (List.mem_of_getElem? hp) c (p.step_calls hu hc)

/-- A further handler keeps the property if it holds of its calls. -/
theorem Pool.Calls.issue (hs : s.Calls P) {h : Handler κ} (hh : ∀ c ∈ h.calls, P c) :
    (s.issue h).Calls P := by
  intro q hq c hc
  rcases List.mem_append.mp hq with hq | hq
  · exact hs q hq c hc
  · rw [List.mem_singleton.mp hq] at hc
    rcases Handler.mem_advance hc with hc | hc
    · cases hc
    · exact hh c hc

/-- The awaited calls of a handler that has not thrown an exception are still to be made, or
were answered normally. -/
def Pool.Tracks (P : κ → Prop) (s : Pool κ σ) : Prop :=
  ∀ p ∈ s.processes, ∀ c ∈ p.whole.awaited,
    c ∈ p.handler.awaited ∨ p.handler = .thrown ∨ P c

/-- The calls of a handler that has ended without an exception were answered normally. -/
theorem Pool.Tracks.of_done (hs : s.Tracks P) {p : Process κ} (hp : p ∈ s.processes)
    (hdone : p.handler = .done) {c : κ} (hc : c ∈ p.whole.awaited) : P c := by
  rcases hs p hp c hc with hc | hthrown | hc
  · rw [hdone] at hc
    cases hc
  · rw [hdone] at hthrown
    cases hthrown
  · exact hc

/-- An answer keeps track of the calls. -/
theorem Pool.Tracks.reply (hs : s.Tracks P) (h : s.reply answer r = some t)
    (hold : ∀ c, P c → Q c)
    (hnew : ∀ c, s.call r = some c → (answer r.outcome c s.service).1 = true → Q c) :
    t.Tracks Q := by
  obtain ⟨p, u, hp, hu, rfl⟩ := Pool.reply_eq_some.mp h
  intro q hq c hc
  rcases List.mem_or_eq_of_mem_set hq with hq | rfl
  · exact (hs q hq c hc).imp_right (Or.imp_right (hold c))
  · rcases hs p (List.mem_of_getElem? hp) c hc with hc | hthrown | hc
    · refine (p.step_awaited hu hc).imp_right (Or.imp_right ?_)
      rintro ⟨hcall, hnormal⟩
      exact hnew c (by simp [Pool.call, hp, hcall]) hnormal
    · exact Or.inr (Or.inl (p.step_thrown hu hthrown))
    · exact Or.inr (Or.inr (hold c hc))

/-- A further handler has all its awaited calls still to make. -/
theorem Pool.Tracks.issue (hs : s.Tracks P) (h : Handler κ) : (s.issue h).Tracks P := by
  intro q hq c hc
  rcases List.mem_append.mp hq with hq | hq
  · exact hs q hq c hc
  · obtain rfl := List.mem_singleton.mp hq
    exact Or.inl (by rwa [Process.start, Handler.advance_awaited])

/-! ## Calls answered as they are made -/

/-- What is left of a handler that has ended, with an exception or without. -/
def Handler.ended (normal : Bool) : Handler κ := if normal then done else thrown

end Pool

end Futures
