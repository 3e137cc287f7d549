import EthosApp.App.Handlers
import EthosApp.Lib.Reachability
import EthosApp.Store.Readers

/-!
# The app refines its two parts

The stack of every client moves as the stack of routes does, and what all clients together
do to the remote state is a run of reads and confirms: a record that a page holds was read
before its form is confirmed, and a form is confirmed as its actions filled it. What holds
in every state of the two parts therefore holds in every state of the app.
-/

namespace EthosApp

open Dart Firestore DocStore Runs

namespace App

/-! ## The routes of a client -/

/-- The stack of routes of a client. -/
def Client.navigation (c : Client) : Navigation.State := ⟨c.stack.map Page.route, c.signedIn⟩

/-- The actions on the stack of routes that an action of a client stands for. -/
structure Moves (c : Client) (a : Action) (c' : Client) (nas : List Navigation.Action) : Prop where
  /-- They lead from the one stack to the other. -/
  fold : nas.foldlM Navigation.step c.navigation = some c'.navigation
  /-- A logout is a logout of the stack. -/
  logout : a = .logout → nas = [.logout]
  /-- There is no other logout. -/
  notLogout : a ≠ .logout → .logout ∉ nas

/-- One action of the top route. -/
theorem foldlM_singleton {top : Navigation.Route} {rest : List Navigation.Route} {signedIn : Bool}
    {na : Navigation.Action} {m : Navigation.Move} {stack : List Navigation.Route}
    (hhandler : Navigation.handler signedIn top na = some [m])
    (happly : m.apply (top :: rest) = some stack) :
    [na].foldlM Navigation.step ⟨top :: rest, signedIn⟩ =
      some ⟨stack, Navigation.signedInAfter signedIn na⟩ := by
  simp [Navigation.step, hhandler, happly]

/-- Every action of a client stands for actions on its stack of routes. -/
theorem Spec.moves {zone : Zone} {b b' : Backend} {c c' : Client} {a : Action}
    (h : Spec zone b c a c' b') : ∃ nas, Moves c a c' nas := by
  cases h with
  | stay ha => exact ⟨[], rfl, fun h => absurd h (Action.ne_logout ha), by simp⟩
  | push ha na hna hhandler =>
    refine ⟨[na], ?_, fun h => absurd h (Action.ne_logout ha), ?_⟩
    · refine (foldlM_singleton (hhandler _) rfl).trans ?_
      rw [hna]
      rfl
    · rintro _ hmem
      rw [← List.mem_singleton.mp hmem] at hna
      exact absurd (hna true) (by simp [Navigation.signedInAfter])
  | replace ha na hna hhandler hsignedIn =>
    refine ⟨[na], ?_, fun h => absurd h (Action.ne_logout ha), ?_⟩
    · refine (foldlM_singleton hhandler rfl).trans ?_
      rw [hsignedIn]
      rfl
    · rintro _ hmem
      exact hna (List.mem_singleton.mp hmem).symm
  | fill ha hroute =>
    refine ⟨[], ?_, fun h => absurd h (Action.ne_logout ha), by simp⟩
    simp [Client.navigation, hroute]
  | @load _ n p q _ ha hp hroute =>
    refine ⟨[], ?_, fun h => absurd h (Action.ne_logout ha), by simp⟩
    obtain ⟨hn, rfl⟩ := List.getElem?_eq_some_iff.mp hp
    have hsame : (c.stack.set n c.stack[n]).map Page.route = c.stack.map Page.route := by
      rw [List.set_getElem_self]
    rw [List.map_set] at hsame
    simp [Client.navigation, List.map_set, hroute, hsame]
  | close closed ha nas hnas hfold =>
    refine ⟨nas, ?_, fun h => absurd h (Action.ne_logout ha), fun _ => hnas⟩
    simp only [Client.navigation, List.map_append, List.map_cons]
    exact hfold _
  | logout => exact ⟨[.logout], rfl, fun _ => rfl, fun h => absurd rfl h⟩
  | @save form rest signedIn presente o o' now k _ =>
    by_cases hnormal : (k b).1 = .normal
    · refine ⟨[.conferma], ?_, by simp, by simp⟩
      simp only [saved, hnormal, if_true]
      rfl
    · refine ⟨[], ?_, by simp, by simp⟩
      simp only [saved, hnormal, if_false]
      rfl

/-- The stack of routes of every client is reached by the actions of the stack. -/
theorem reaches_navigation {zone : Zone} {signedIn : ℕ → Bool} {hist : List (State × Event)}
    {s : State} (hrun : Run (step zone) (State.start signedIn) hist s) (i : ℕ) :
    Reaches Navigation.step (Navigation.State.start (signedIn i)) (s.clients i).navigation := by
  induction hrun with
  | nil => exact Reaches.refl _
  | @snoc hist s t e _ hlast ih =>
    obtain ⟨r, hr, rfl⟩ := Option.map_eq_some_iff.mp hlast
    obtain ⟨nas, hmoves⟩ := (clientStep_spec hr).moves
    by_cases hi : i = e.client
    · subst hi
      dsimp only
      rw [Function.update_self]
      exact ih.trans (Reaches.of_actions hmoves.fold)
    · dsimp only
      rwa [Function.update_of_ne hi]

/-! ## The forms of a client -/

/-- The forms of a client are filled by actions, and a form under the dialog that confirms it
is valid. -/
structure Client.Formed (c : Client) : Prop where
  /-- Every form is filled by actions. -/
  formed : ∀ p ∈ c.stack, p.Formed
  /-- The form under a dialog that confirms it is valid. -/
  saves : c.stack.IsChain fun upper lower => upper.route = .saveDialog → lower.Valid

/-- A page is put on the top. -/
theorem Client.Formed.cons {p : Page} {rest : List Page} {signedIn signedIn' : Bool}
    (hc : Client.Formed ⟨rest, signedIn⟩) (hp : p.Formed)
    (hsave : ∀ lower ∈ rest.head?, p.route = .saveDialog → lower.Valid) :
    Client.Formed ⟨p :: rest, signedIn'⟩ :=
  ⟨List.forall_mem_cons.mpr ⟨hp, hc.formed⟩, List.isChain_cons.mpr ⟨hsave, hc.saves⟩⟩

/-- The pages under the top. -/
theorem Client.Formed.tail (closed : List Page) {rest : List Page} {signedIn signedIn' : Bool}
    (hc : Client.Formed ⟨closed ++ rest, signedIn⟩) : Client.Formed ⟨rest, signedIn'⟩ :=
  ⟨fun p hp => hc.formed p (List.mem_append_right _ hp), (List.isChain_append.mp hc.saves).2.1⟩

/-- A page in a stack is replaced by one with its route that is no form. -/
theorem isChain_set {stack : List Page} {n : ℕ} {p q : Page} (hp : stack[n]? = some p)
    (hroute : q.route = p.route) (hvalid : ¬ p.Valid)
    (hchain : stack.IsChain fun upper lower => upper.route = .saveDialog → lower.Valid) :
    (stack.set n q).IsChain fun upper lower => upper.route = .saveDialog → lower.Valid := by
  induction stack generalizing n with
  | nil => simp
  | cons top rest ih =>
    obtain ⟨htop, hrest⟩ := List.isChain_cons.mp hchain
    cases n with
    | zero =>
      cases hp
      rw [List.set_cons_zero, List.isChain_cons]
      exact ⟨fun lower hlower hsave => htop lower hlower (hroute ▸ hsave), hrest⟩
    | succ n =>
      rw [List.getElem?_cons_succ] at hp
      rw [List.set_cons_succ, List.isChain_cons]
      refine ⟨?_, ih hp hrest⟩
      cases rest with
      | nil => cases hp
      | cons lower rest =>
        cases n with
        | zero =>
          cases hp
          rintro _ _ hsave
          exact absurd (htop p rfl hsave) hvalid
        | succ n => exact htop

/-- Every action of a client keeps its forms. -/
theorem Spec.formed {zone : Zone} {b b' : Backend} {c c' : Client} {a : Action}
    (h : Spec zone b c a c' b') (hc : c.Formed) : c'.Formed := by
  have hbelow : ∀ {top : Page} {rest : List Page} {signedIn : Bool},
      Client.Formed ⟨top :: rest, signedIn⟩ → Client.Formed ⟨rest, signedIn⟩ :=
    fun {top _ _} hc => hc.tail [top]
  cases h with
  | stay => exact hc
  | push _ _ _ _ hformed hsave =>
    refine hc.cons hformed ?_
    rintro lower hlower hroute
    cases hlower
    exact hsave hroute
  | replace _ _ _ _ _ hformed hsave =>
    exact (hbelow hc).cons hformed fun lower _ hroute => absurd hroute hsave
  | fill _ hroute hformed =>
    refine (hbelow hc).cons (hformed (hc.formed _ List.mem_cons_self)) ?_
    intro lower hlower hsave
    exact (List.isChain_cons.mp hc.saves).1 lower hlower (hroute ▸ hsave)
  | load _ hp hroute hformed hvalid =>
    refine ⟨?_, isChain_set hp hroute hvalid hc.saves⟩
    intro x hx
    rcases List.mem_or_eq_of_mem_set hx with hx | rfl
    · exact hc.formed x hx
    · exact hformed
  | close closed => exact hc.tail closed
  | @logout below rest signedIn =>
    have hrest : Client.Formed ⟨rest, signedIn⟩ := hbelow (hbelow hc)
    exact hrest.cons trivial (by simp [Page.route])
  | @save form rest signedIn presente o o' now k _ =>
    by_cases hnormal : (k b).1 = .normal
    · simp only [saved, hnormal, if_true]
      exact hc.cons trivial (by simp [Page.route])
    · simp only [saved, hnormal, if_false]
      exact hc

/-! ## The remote state -/

/-- The events of a confirmed form, newest first. -/
def formEvents (zone : Zone) (o o' : Outcome) (presente : Option Bool) :
    Page → List (String × EthosApp.Event)
  | .add f =>
    if presente = some false then
      fileEvent f.codice (f.uploads o') ++ recordEvent .put (f.writes o)
    else []
  | .editControl _ (some f) =>
    fileEvent f.codice (f.uploads o') ++ recordEvent .change (f.writes o)
  | .controlCheck x f =>
    recordEvent .change (f.writes o' x) ++ entryEvent (f.registers zone o x)
  | _ => []

/-- The events of an action of a client, newest first. -/
def clientEvents (zone : Zone) (c : Client) : Action → List (String × EthosApp.Event)
  | .conferma o o' =>
    match c.stack with
    | .saveDialog presente :: form :: _ => formEvents zone o o' presente form
    | _ => []
  | _ => []

/-- The events of a step, newest first. -/
def events (zone : Zone) (s : State) (e : Event) : List (String × EthosApp.Event) :=
  clientEvents zone (s.clients e.client) e.action

/-- The events recorded along a run, newest first. -/
def eventLog (zone : Zone) (hist : List (State × Event)) : List (String × EthosApp.Event) :=
  KeyedLog.log (events zone) hist

/-- A run of reads and confirms stands for a run of the app. -/
structure Represented (zone : Zone) (hist : List (State × Event)) (s : State)
    (hist' : List (Confirms.State × Confirms.Action)) (t : Confirms.State) : Prop where
  /-- It is a run. -/
  run : Run (Confirms.step zone) Confirms.State.start hist' t
  /-- The remote state is the same. -/
  backend : t.backend = s.backend
  /-- Every record that a page holds was read. -/
  held : ∀ i, ∀ p ∈ (s.clients i).stack, ∀ x ∈ p.held, ∃ r ∈ t.readings, r.controllo = x
  /-- The events are the same. -/
  log : Confirms.eventLog zone hist' = eventLog zone hist

/-- Further reads of stored documents continue a run. -/
theorem exists_reads {zone : Zone} {hist : List (Confirms.State × Confirms.Action)}
    {t : Confirms.State} (hrun : Run (Confirms.step zone) Confirms.State.start hist t)
    (xs : List Controllo)
    (hxs : ∀ x ∈ xs, (∃ r ∈ t.readings, r.controllo = x) ∨ Decoded t.backend x) :
    ∃ more t', Run (Confirms.step zone) Confirms.State.start (more ++ hist) t' ∧
      t'.backend = t.backend ∧ (∀ r ∈ t.readings, r ∈ t'.readings) ∧
      (∀ x ∈ xs, ∃ r ∈ t'.readings, r.controllo = x) ∧ Confirms.eventLog zone more = [] := by
  induction xs with
  | nil => exact ⟨[], t, hrun, rfl, fun r hr => hr, by simp, rfl⟩
  | cons x xs ih =>
    obtain ⟨more, t', hrun', hbackend, hkept, hread, hlog⟩ :=
      ih fun y hy => hxs y (List.mem_cons_of_mem _ hy)
    rcases hxs x List.mem_cons_self with ⟨r, hr, hx⟩ | ⟨p, d, h, hdoc, hdecode⟩
    · refine ⟨more, t', hrun', hbackend, hkept, ?_, hlog⟩
      exact List.forall_mem_cons.mpr ⟨⟨r, hkept r hr, hx⟩, hread⟩
    · rw [← hbackend] at hdoc
      obtain ⟨r, hr, hx⟩ := Reading.exists_ofBackend hdoc hdecode
      have hstep : Confirms.step zone t' (.read p h) =
          some { t' with readings := r :: t'.readings } := by
        simp [Confirms.step, hr]
      refine ⟨(t', .read p h) :: more, _, hrun'.snoc hstep, hbackend,
        fun r' hr' => List.mem_cons_of_mem _ (hkept r' hr'), ?_, ?_⟩
      · refine List.forall_mem_cons.mpr ⟨⟨r, List.mem_cons_self, hx⟩, fun y hy => ?_⟩
        obtain ⟨r', hr', hy⟩ := hread y hy
        exact ⟨r', List.mem_cons_of_mem _ hr', hy⟩
      · exact hlog

/-- A confirmed form is a confirm of the session that filled it. -/
theorem exists_confirm {zone : Zone} {t : Confirms.State} {o o' : Outcome}
    {presente : Option Bool} {form : Page} {k : Command}
    (hconfirm : confirm zone o o' presente form = some k) (hformed : form.Formed)
    (hvalid : form.Valid) (hheld : ∀ x ∈ form.held, ∃ r ∈ t.readings, r.controllo = x) :
    ∃ a, Confirms.step zone t a = some { t with backend := (k t.backend).2 } ∧
      Confirms.events zone t a = formEvents zone o o' presente form := by
  unfold confirm at hconfirm
  split at hconfirm
  · rename_i f
    split at hconfirm
    · rename_i hpresente
      cases hconfirm
      obtain ⟨code, actions, hrun⟩ := hformed
      have hsession := Add.session_eq_some.mpr ⟨hrun, hvalid⟩
      refine ⟨.add code actions o o', ?_, ?_⟩
      · simp [Confirms.step, hsession]
      · simp [Confirms.events, hsession, formEvents, hpresente]
    · cases hconfirm
  · rename_i x f
    cases hconfirm
    obtain ⟨f₀, actions, hinit, hrun⟩ := hformed
    obtain ⟨r, hr, rfl⟩ := hheld x List.mem_cons_self
    obtain ⟨i, hi⟩ := List.mem_iff_getElem?.mp hr
    have hsession := EditControl.session_eq_some.mpr ⟨f₀, hinit, hrun, hvalid⟩
    refine ⟨.edit i actions o o', ?_, ?_⟩
    · simp [Confirms.step, hi, hsession]
    · simp [Confirms.events, hi, hsession, formEvents]
  · rename_i x f
    cases hconfirm
    obtain ⟨actions, hrun⟩ := hformed
    obtain ⟨r, hr, rfl⟩ := hheld x List.mem_cons_self
    obtain ⟨i, hi⟩ := List.mem_iff_getElem?.mp hr
    have hsession := ControlCheck.session_eq_some.mpr ⟨hrun, hvalid⟩
    refine ⟨.check i actions o o', ?_, ?_⟩
    · simp [Confirms.step, hi, hsession]
    · simp [Confirms.events, hi, hsession, formEvents]
  · cases hconfirm

/-- A quiet action makes no events. -/
theorem clientEvents_of_isQuiet {zone : Zone} {c : Client} {a : Action} (ha : a.isQuiet = true) :
    clientEvents zone c a = [] := by
  cases a <;> first | rfl | cases ha

/-- What an action of a client does to the remote state. -/
inductive StoreSpec (zone : Zone) (b : Backend) (c : Client) (a : Action) : Client → Backend → Prop
  /-- The remote state is left alone, and the records of new pages are held already or read. -/
  | read {c' : Client} (hevents : clientEvents zone c a = [])
      (hheld : ∀ p ∈ c'.stack, ∀ x ∈ p.held, (∃ q ∈ c.stack, x ∈ q.held) ∨ Decoded b x) :
      StoreSpec zone b c a c' b
  /-- A form is confirmed, and new pages hold no records. -/
  | confirm {c' : Client} {o o' : Outcome} {presente : Option Bool} {form : Page} {k : Command}
      (hconfirm : App.confirm zone o o' presente form = some k) (hmem : form ∈ c.stack)
      (hvalid : c.Formed → form.Valid)
      (hevents : clientEvents zone c a = formEvents zone o o' presente form)
      (hheld : ∀ p ∈ c'.stack, p ∈ c.stack ∨ p.held = []) :
      StoreSpec zone b c a c' (k b).2

/-- Every action reads or confirms. -/
theorem Spec.store {zone : Zone} {b b' : Backend} {c c' : Client} {a : Action}
    (h : Spec zone b c a c' b') : StoreSpec zone b c a c' b' := by
  have hold : ∀ {c : Client} {p : Page}, p ∈ c.stack → ∀ x ∈ p.held,
      (∃ q ∈ c.stack, x ∈ q.held) ∨ Decoded b x := fun hp x hx => Or.inl ⟨_, hp, hx⟩
  cases h with
  | stay ha => exact .read (clientEvents_of_isQuiet ha) fun p hp => hold hp
  | push ha _ _ _ _ _ hheld =>
    refine .read (clientEvents_of_isQuiet ha) (List.forall_mem_cons.mpr ⟨?_, fun p hp => hold hp⟩)
    intro x hx
    exact (hheld x hx).imp_left fun hx => ⟨_, List.mem_cons_self, hx⟩
  | replace ha _ _ _ _ _ _ hheld =>
    refine .read (clientEvents_of_isQuiet ha) (List.forall_mem_cons.mpr
      ⟨?_, fun p hp => hold (List.mem_cons_of_mem _ hp)⟩)
    intro x hx
    exact (hheld x hx).imp_left fun hx => ⟨_, List.mem_cons_self, hx⟩
  | fill ha _ _ hheld =>
    refine .read (clientEvents_of_isQuiet ha) (List.forall_mem_cons.mpr
      ⟨?_, fun p hp => hold (List.mem_cons_of_mem _ hp)⟩)
    intro x hx
    exact Or.inl ⟨_, List.mem_cons_self, hheld x hx⟩
  | load ha _ _ _ _ hheld =>
    refine .read (clientEvents_of_isQuiet ha) ?_
    intro p hp
    rcases List.mem_or_eq_of_mem_set hp with hp | rfl
    · exact hold hp
    · exact fun x hx => Or.inr (hheld x hx)
  | close closed ha =>
    exact .read (clientEvents_of_isQuiet ha) fun p hp => hold (List.mem_append_right _ hp)
  | logout =>
    refine .read rfl (List.forall_mem_cons.mpr ⟨by simp [Page.held], fun p hp => ?_⟩)
    exact hold (List.mem_cons_of_mem _ (List.mem_cons_of_mem _ hp))
  | @save form rest signedIn presente o o' now k hconfirm =>
    refine .confirm hconfirm (List.mem_cons_of_mem _ List.mem_cons_self) ?_ rfl ?_
    · intro hc
      exact (List.isChain_cons_cons.mp hc.saves).1 rfl
    · intro p hp
      by_cases hnormal : (k b).1 = .normal
      · simp only [saved, hnormal, if_true] at hp
        rcases List.mem_cons.mp hp with rfl | hp
        · exact Or.inr rfl
        · exact Or.inl hp
      · simp only [saved, hnormal, if_false] at hp
        exact Or.inl hp

/-- The pages of all clients after an action of one of them. -/
theorem forall_update {clients : ℕ → Client} {i : ℕ} {c : Client} {P : Page → Prop}
    (hothers : ∀ j, ∀ p ∈ (clients j).stack, P p) (hc : ∀ p ∈ c.stack, P p) (j : ℕ) :
    ∀ p ∈ (Function.update clients i c j).stack, P p := by
  by_cases hj : j = i
  · subst hj
    rwa [Function.update_self]
  · rw [Function.update_of_ne hj]
    exact hothers j

/-- **One step of the app is some reads, or a confirm.** -/
theorem Represented.step {zone : Zone} {hist : List (State × Event)} {s s' : State} {e : Event}
    {hist' : List (Confirms.State × Confirms.Action)} {t : Confirms.State}
    (hrep : Represented zone hist s hist' t) (hformed : (s.clients e.client).Formed)
    (hstep : App.step zone s e = some s') :
    ∃ hist'' t', Represented zone ((s, e) :: hist) s' hist'' t' := by
  obtain ⟨hrun, hbackend, hheld, hlog⟩ := hrep
  obtain ⟨⟨c', b'⟩, hr, rfl⟩ := Option.map_eq_some_iff.mp hstep
  have hstore := (clientStep_spec hr).store
  dsimp only at hstore ⊢
  have hlog' : eventLog zone ((s, e) :: hist) =
      clientEvents zone (s.clients e.client) e.action ++ eventLog zone hist := rfl
  cases hstore with
  | read hevents hnew =>
    obtain ⟨more, t', hrun', hbackend', hkept, hread, hmore⟩ := exists_reads hrun
      (c'.stack.flatMap Page.held) (by
        intro x hx
        obtain ⟨p, hp, hx⟩ := List.mem_flatMap.mp hx
        rcases hnew p hp x hx with ⟨q, hq, hx⟩ | hx
        · exact Or.inl (hheld e.client q hq x hx)
        · exact Or.inr (by rwa [hbackend]))
    refine ⟨more ++ hist', t', hrun', hbackend'.trans hbackend, ?_, ?_⟩
    · refine forall_update (P := fun p => ∀ x ∈ p.held, ∃ r ∈ t'.readings, r.controllo = x) ?_ ?_
      · intro j p hp x hx
        obtain ⟨r, hr, hx⟩ := hheld j p hp x hx
        exact ⟨r, hkept r hr, hx⟩
      · intro p hp x hx
        exact hread x (List.mem_flatMap.mpr ⟨p, hp, hx⟩)
    · rw [hlog', hevents, ← hlog]
      simp only [Confirms.eventLog, KeyedLog.log, List.flatMap_append] at hmore ⊢
      rw [hmore]
  | @confirm o o' presente form k hconfirm hmem hvalid hevents hnew =>
    obtain ⟨a, ha, hsame⟩ := exists_confirm hconfirm (hformed.formed form hmem) (hvalid hformed)
      (hheld e.client form hmem)
    refine ⟨(t, a) :: hist', _, hrun.snoc ha, ?_, ?_, ?_⟩
    · dsimp only
      rw [hbackend]
    · refine forall_update (P := fun p => ∀ x ∈ p.held, ∃ r ∈ t.readings, r.controllo = x) hheld ?_
      intro p hp x hx
      rcases hnew p hp with hp | hnone
      · exact hheld e.client p hp x hx
      · rw [hnone] at hx
        cases hx
    · rw [hlog', hevents, ← hsame, ← hlog]
      rfl

/-- The forms of all clients are filled by actions. -/
theorem formed_of_run {zone : Zone} {signedIn : ℕ → Bool} {hist : List (State × Event)} {s : State}
    (hrun : Run (step zone) (State.start signedIn) hist s) (i : ℕ) : (s.clients i).Formed := by
  induction hrun with
  | nil => exact ⟨by simp [State.start, Page.Formed], by simp [State.start]⟩
  | @snoc hist s t e _ hlast ih =>
    obtain ⟨r, hr, rfl⟩ := Option.map_eq_some_iff.mp hlast
    by_cases hi : i = e.client
    · subst hi
      dsimp only
      rw [Function.update_self]
      exact (clientStep_spec hr).formed ih
    · dsimp only
      rwa [Function.update_of_ne hi]

/-- Every run of the app is represented by a run of reads and confirms. -/
theorem exists_represented {zone : Zone} {signedIn : ℕ → Bool} {hist : List (State × Event)}
    {s : State} (hrun : Run (step zone) (State.start signedIn) hist s) :
    ∃ hist' t, Represented zone hist s hist' t := by
  induction hrun with
  | nil => exact ⟨[], _, .nil, rfl, by simp [State.start, Page.held], rfl⟩
  | snoc hbefore hlast ih =>
    obtain ⟨hist', t, hrep⟩ := ih
    exact hrep.step (formed_of_run hbefore _) hlast

/-- **The app refines its two parts.** For every run of any number of clients there is a run
of reads and confirms with the same events that leaves the same remote state, in which every
record that a page holds was read, and the stack of every client is reached by the actions
of the stack of routes. -/
theorem app_refines {zone : Zone} {signedIn : ℕ → Bool} {hist : List (State × Event)} {s : State}
    (hrun : Run (step zone) (State.start signedIn) hist s) :
    (∃ hist' t, Represented zone hist s hist' t) ∧
      ∀ i, Reaches Navigation.step (Navigation.State.start (signedIn i))
        (s.clients i).navigation :=
  ⟨exists_represented hrun, reaches_navigation hrun⟩

/-- One client registers a machine and opens it, while another one lists the machines. -/
def twoClients (now : DateTime) : List Event :=
  [⟨0, now, .goToNextPage⟩, ⟨1, now, .goToNextPage⟩, ⟨0, now, .aggiungi⟩,
    ⟨1, now, .macchineRegistrate⟩, ⟨0, now, .compilaAdd (.codice "M1")⟩,
    ⟨0, now, .compilaAdd (.descrizione "Pulizia")⟩,
    ⟨0, now, .compilaAdd (.dataUltimo (.type "15/01/2022"))⟩,
    ⟨0, now, .compilaAdd (.dataProssimo (.type "15/01/2023"))⟩,
    ⟨0, now, .compilaAdd (.file ⟨"/foto/scheda.pdf"⟩)⟩, ⟨0, now, .salva⟩,
    ⟨0, now, .presente .success⟩, ⟨0, now, .conferma .success .success⟩,
    ⟨1, now, .carica 0 .success⟩, ⟨1, now, .mostraRiepilogo 0⟩, ⟨1, now, .effettuaControllo⟩,
    ⟨1, now, .apri⟩, ⟨1, now, .compilaCheck (.dataControllo (.type "16/01/2023"))⟩,
    ⟨1, now, .compilaCheck (.dataProssimo (.type "16/01/2024"))⟩, ⟨1, now, .salva⟩,
    ⟨1, now, .conferma .success .success⟩]

/-- The run of two clients. -/
def runTwoClients : Option (List (State × Event) × State) :=
  exec (step (Zone.fixed 3600 Zone.hour_lt_day)) [] (State.start fun _ => true)
    (twoClients (.midnight (.normalize 2023 1 16)))

/-- The actions of the two clients are possible one after the other. -/
theorem runTwoClients_isSome : runTwoClients.isSome := by decide +kernel

/-- The run of the two clients is represented. -/
theorem app_refines_two :
    (∃ hist' t, Represented (Zone.fixed 3600 Zone.hour_lt_day)
      (runTwoClients.get runTwoClients_isSome).1 (runTwoClients.get runTwoClients_isSome).2
        hist' t) ∧
      ∀ i, Reaches Navigation.step (Navigation.State.start true)
        ((runTwoClients.get runTwoClients_isSome).2.clients i).navigation :=
  app_refines (run_get runTwoClients_isSome)

end App

end EthosApp
