import EthosApp.App.Guarantees

/-!
# The search dialog

A search reads twice: first whether the code is registered, and then, where it is, the
machine. The second read and the offer to register the code take the text of the dialog as it
is when the first answer arrives, which the user may have changed since. Both pages are opened
from the dialog, which the user may have closed since. Nothing that was found is ever lost, so
that a search whose dialog was left alone always opens the machine that it found.
-/

namespace EthosApp

open Dart Firestore DocStore Runs

namespace App

namespace SearchControl

/-- How far a search has come. Each keeps the code that the user searched for, and those that
have had their first answer keep the code that they went on with. -/
inductive Search
  /-- `isControlloPresente` is called. -/
  | presente (cercato : String)
  /-- Its answer is under way. -/
  | risposta (cercato : String) (presente : Bool)
  /-- `getControllo` is called. -/
  | lettura (cercato codice : String)
  /-- Its answer is under way. It is `none` where reading throws an exception. -/
  | letto (cercato codice : String) (o : Outcome) (c : Option Controllo)
  /-- The machine is opened. -/
  | aperto (cercato codice : String) (c : Controllo)
  /-- The offer to register a machine is opened. -/
  | avviso (cercato codice : String)
  /-- The search has ended with an exception of its second read. -/
  | eccezione (cercato codice : String) (o : Outcome)
  /-- The search has ended with an exception where its page should have been opened. -/
  | chiuso (cercato codice : String)
  deriving DecidableEq

/-- The dialog on the app. -/
structure State where
  /-- The clients and the remote state. -/
  app : App.State
  /-- The text of the dialog. -/
  codice : String
  /-- The searches, oldest first. -/
  searches : List Search
  /-- How many pages lie on the dialog. -/
  covered : ℕ
  /-- Whether the dialog is still there. -/
  mounted : Bool

/-- The dialog as it is opened. -/
def State.start (app : App.State) : State := ⟨app, "", [], 0, true⟩

/-- What can happen. -/
inductive Action
  /-- Some client does something. -/
  | app (e : Event)
  /-- The text is changed. -/
  | codice (s : String)
  /-- The button of the dialog. -/
  | cerca
  /-- The server executes the call of a search. -/
  | execute (i : ℕ) (o : Outcome)
  /-- The answer to a search arrives. -/
  | deliver (i : ℕ)
  /-- The page on the dialog is closed. -/
  | back
  /-- The dialog is gone: it was left with `Annulla`, the back button or a tap beside it. -/
  | annulla

/-- A search whose call is executed. -/
def Search.execute (o : Outcome) (b : Backend) : Search → Option Search
  | presente cercato => some (risposta cercato (isControlloPresente o cercato b))
  | lettura cercato codice =>
    match o with
    | .success => some (letto cercato codice .success (getControllo codice b))
    | .failure => some (letto cercato codice .failure none)
  | _ => none

/-- A search whose answer arrives while the dialog has a text. The variable with the text
outlives the dialog, and `Navigator.push` and `showDialog` throw once the context of the dialog
is gone. -/
def Search.deliver (mounted : Bool) (codice : String) : Search → Option Search
  | risposta cercato true => some (lettura cercato codice)
  | risposta cercato false =>
    some (if mounted then avviso cercato codice else chiuso cercato codice)
  | letto cercato codice' _ (some c) =>
    some (if mounted then aperto cercato codice' c else chiuso cercato codice')
  | letto cercato codice' o none => some (eccezione cercato codice' o)
  | _ => none

/-- Whether a search has opened a page. -/
def Search.opens : Search → Bool
  | aperto _ _ _ => true
  | avviso _ _ => true
  | _ => false

/-- One step. The dialog can be used while it is there and no page lies on it, and it looks up no
empty text. A dialog that is left may be gone a moment later, when its animation has ended. -/
def step (zone : Zone) (s : State) : Action → Option State
  | .app e => (App.step zone s.app e).map fun app => { s with app }
  | .codice codice => if s.covered = 0 ∧ s.mounted then some { s with codice } else none
  | .cerca =>
    if s.covered = 0 ∧ s.mounted ∧ s.codice ≠ "" then
      some { s with searches := s.searches ++ [.presente s.codice] }
    else none
  | .execute i o =>
    (s.searches[i]?.bind (Search.execute o s.app.backend)).map fun x =>
      { s with searches := s.searches.set i x }
  | .deliver i =>
    (s.searches[i]?.bind (Search.deliver s.mounted s.codice)).map fun x =>
      { s with
        searches := s.searches.set i x
        covered := if x.opens then s.covered + 1 else s.covered }
  | .back => if s.covered = 0 then none else some { s with covered := s.covered - 1 }
  | .annulla => if s.mounted then some { s with mounted := false } else none

/-- A search does what the user asked for: it goes on with the code that was searched for, it
opens the machine that this code addresses, and it ends with an exception only where a read
fails. -/
def Search.Right : Search → Prop
  | lettura cercato codice => codice = cercato
  | letto cercato codice _ _ => codice = cercato
  | aperto cercato codice c => codice = cercato ∧ docPath c.cod = docPath cercato
  | avviso cercato codice => codice = cercato
  | eccezione cercato codice o => codice = cercato ∧ o = .failure
  | chiuso _ _ => False
  | _ => True

/-- Every search does what the user asked for. -/
def State.Right (s : State) : Prop := ∀ x ∈ s.searches, x.Right

/-- The dialog is as an answer to a search needs it: the first answer finds the text that was
searched for, and an answer that opens a page finds the dialog. -/
def Search.Ready (mounted : Bool) (codice : String) : Search → Prop
  | risposta cercato true => codice = cercato
  | risposta cercato false => codice = cercato ∧ mounted = true
  | letto _ _ _ (some _) => mounted = true
  | _ => True

instance (mounted : Bool) (codice : String) : (x : Search) → Decidable (x.Ready mounted codice)
  | .risposta _ true => inferInstanceAs (Decidable (_ = _))
  | .risposta _ false => inferInstanceAs (Decidable (_ ∧ _))
  | .letto _ _ _ (some _) => inferInstanceAs (Decidable (_ = _))
  | .presente _ => isTrue trivial
  | .lettura _ _ => isTrue trivial
  | .letto _ _ _ none => isTrue trivial
  | .aperto _ _ _ => isTrue trivial
  | .avviso _ _ => isTrue trivial
  | .eccezione _ _ _ => isTrue trivial
  | .chiuso _ _ => isTrue trivial

/-- An answer that arrives finds the dialog as it needs it. -/
def InTime (s : State) : Action → Prop
  | .deliver i => ∀ x ∈ s.searches[i]?, x.Ready s.mounted s.codice
  | _ => True

instance (s : State) : (a : Action) → Decidable (InTime s a)
  | .deliver i => inferInstanceAs (Decidable (∀ x ∈ s.searches[i]?, x.Ready s.mounted s.codice))
  | .app _ => isTrue trivial
  | .codice _ => isTrue trivial
  | .cerca => isTrue trivial
  | .execute _ _ => isTrue trivial
  | .back => isTrue trivial
  | .annulla => isTrue trivial

/-- The clients do nothing, or confirm plain forms. -/
def PlainStep (zone : Zone) (s : State) : Action → Prop
  | .app e => ∀ x ∈ events zone s.app e, EthosApp.Event.Plain x
  | _ => True

instance (zone : Zone) (s : State) : (a : Action) → Decidable (PlainStep zone s a)
  | .app e => inferInstanceAs (Decidable (∀ x ∈ events zone s.app e, EthosApp.Event.Plain x))
  | .codice _ => isTrue trivial
  | .cerca => isTrue trivial
  | .execute _ _ => isTrue trivial
  | .deliver _ => isTrue trivial
  | .back => isTrue trivial
  | .annulla => isTrue trivial

/-! ## What was found can be read -/

/-- What was found to be registered stays so. -/
theorem isControlloPresente_of_keeps {b b' : Backend} {codice : String} (hkeeps : b.Keeps b')
    (h : isControlloPresente .success codice b = true) :
    isControlloPresente .success codice b' = true := by
  unfold isControlloPresente at h ⊢
  cases hpath : docPath codice with
  | none => simp [hpath] at h
  | some p =>
    simp only [hpath] at h ⊢
    exact hkeeps.controlli p h

/-- A machine that is found is read, and its code addresses the document that was read. -/
theorem exists_getControllo {zone : Zone} {A : Registry} {b : Backend} (hb : Represents zone A b)
    {codice : String} (h : isControlloPresente .success codice b = true) :
    ∃ c, getControllo codice b = some c ∧ docPath c.cod = docPath codice := by
  rw [hb.isControlloPresente, Option.isSome_iff_exists] at h
  obtain ⟨c, hc⟩ := h
  refine ⟨c, by rw [hb.getControllo, hc], ?_⟩
  obtain ⟨p, hp, hrecord⟩ := Option.bind_eq_some_iff.mp hc
  unfold Registry.record at hrecord
  split at hrecord
  · obtain ⟨m, hm, rfl⟩ := Option.map_eq_some_iff.mp hrecord
    rw [hp]
    exact (hb.plain _ m hm).1
  · cases hrecord

/-- What is known of a search besides: a code that was found is still registered, and reading
the machine under it succeeds where the read does. -/
def Search.Sound (b : Backend) : Search → Prop
  | risposta cercato true => isControlloPresente .success cercato b = true
  | lettura cercato codice =>
    codice = cercato → isControlloPresente .success cercato b = true
  | letto cercato codice o c =>
    codice = cercato →
      (o = .success → ∃ x, c = some x ∧ docPath x.cod = docPath cercato) ∧
      (o = .failure → c = none)
  | _ => True

/-- What is known of a search stays so while nothing is lost. -/
theorem Search.Sound.mono {b b' : Backend} {x : Search} (hx : x.Sound b) (hkeeps : b.Keeps b') :
    x.Sound b' := by
  unfold Search.Sound at hx ⊢
  split
  · exact isControlloPresente_of_keeps hkeeps hx
  · exact fun hcodice => isControlloPresente_of_keeps hkeeps (hx hcodice)
  · exact hx
  · trivial

/-- What every reachable state satisfies: the clients have confirmed plain forms, and what is
known of a search holds. -/
structure Inv (zone : Zone) (signedIn : ℕ → Bool) (s : State) : Prop where
  /-- The clients have confirmed plain forms. -/
  app : ∃ hist, Run (App.step zone) (App.State.start signedIn) hist s.app ∧
    ∀ e ∈ eventLog zone hist, EthosApp.Event.Plain e
  /-- What is known of the searches. -/
  searches : ∀ x ∈ s.searches, x.Sound s.app.backend

variable {zone : Zone} {signedIn : ℕ → Bool}

/-- An executed call is answered as the registry says. -/
theorem Search.Sound.execute {A : Registry} {o : Outcome} {b : Backend} {x y : Search}
    (hx : x.Sound b) (hb : Represents zone A b) (hexecute : x.execute o b = some y) :
    y.Sound b := by
  unfold Search.execute at hexecute
  split at hexecute
  · rename_i cercato
    cases hexecute
    cases hfound : isControlloPresente o cercato b with
    | false => trivial
    | true =>
      cases o with
      | success => exact hfound
      | failure =>
        unfold isControlloPresente at hfound
        split at hfound <;> simp_all
  · rename_i cercato codice
    cases o with
    | success =>
      cases hexecute
      rintro rfl
      obtain ⟨c, hc, hpath⟩ := exists_getControllo hb (hx rfl)
      exact ⟨fun _ => ⟨c, hc, hpath⟩, by simp⟩
    | failure =>
      cases hexecute
      exact fun _ => ⟨by simp, fun _ => rfl⟩
  · cases hexecute

/-- What arrives keeps what is known of a search. -/
theorem Search.Sound.deliver {b : Backend} {mounted : Bool} {codice : String} {x y : Search}
    (hx : x.Sound b) (hdeliver : x.deliver mounted codice = some y) : y.Sound b := by
  unfold Search.deliver at hdeliver
  split at hdeliver <;> cases hdeliver
  · exact fun hcodice => hx
  · split <;> trivial
  · split <;> trivial
  · trivial

/-- An answer that arrives does what the user asked for exactly if it finds the dialog as it
needs it. -/
theorem Search.right_deliver_iff {b : Backend} {mounted : Bool} {codice : String} {x y : Search}
    (hx : x.Sound b) (hright : x.Right) (hdeliver : x.deliver mounted codice = some y) :
    y.Right ↔ x.Ready mounted codice := by
  unfold Search.deliver at hdeliver
  split at hdeliver <;> cases hdeliver
  · exact Iff.rfl
  · cases mounted with
    | true => simp [Search.Right, Search.Ready]
    | false => simp [Search.Right, Search.Ready]
  · rename_i cercato codice' o c
    cases mounted with
    | false => simp [Search.Right, Search.Ready]
    | true =>
      refine iff_of_true ?_ rfl
      obtain ⟨hsuccess, hfailure⟩ := hx hright
      cases o with
      | success =>
        obtain ⟨c', hc', hpath⟩ := hsuccess rfl
        cases hc'
        exact ⟨hright, hpath⟩
      | failure => cases hfailure rfl
  · rename_i cercato codice' o
    refine iff_of_true ?_ trivial
    obtain ⟨hsuccess, _⟩ := hx hright
    cases o with
    | success =>
      obtain ⟨c', hc', _⟩ := hsuccess rfl
      cases hc'
    | failure => exact ⟨hright, rfl⟩

/-- A property of all searches after one of them has changed. -/
theorem forall_set {P : Search → Prop} {searches : List Search} {i : ℕ} {x : Search}
    (hall : ∀ x ∈ searches, P x) (hx : P x) : ∀ y ∈ searches.set i x, P y := by
  intro y hy
  rcases List.mem_or_eq_of_mem_set hy with hy | rfl
  · exact hall y hy
  · exact hx

/-- What a step does: a client does something, the dialog is used, a search is started, or one
search goes on. -/
theorem step_cases {s t : State} {a : Action} (hstep : step zone s a = some t) :
    (∃ e, a = .app e ∧ App.step zone s.app e = some t.app ∧ t.searches = s.searches) ∨
    ((∃ codice, a = .codice codice) ∨ a = .back ∨ a = .annulla) ∧ t.app = s.app ∧
      t.searches = s.searches ∨
    a = .cerca ∧ t.app = s.app ∧ t.searches = s.searches ++ [.presente s.codice] ∨
    ∃ i x y, s.searches[i]? = some x ∧ t.app = s.app ∧ t.searches = s.searches.set i y ∧
      ((∃ o, a = .execute i o ∧ x.execute o s.app.backend = some y) ∨
        a = .deliver i ∧ x.deliver s.mounted s.codice = some y) := by
  cases a with
  | app e =>
    obtain ⟨app, happ, rfl⟩ := Option.map_eq_some_iff.mp hstep
    exact Or.inl ⟨e, rfl, happ, rfl⟩
  | codice codice =>
    simp only [step, Option.ite_none_right_eq_some, Option.some.injEq] at hstep
    obtain ⟨_, rfl⟩ := hstep
    exact Or.inr (Or.inl ⟨Or.inl ⟨codice, rfl⟩, rfl, rfl⟩)
  | back =>
    simp only [step, Option.ite_none_left_eq_some, Option.some.injEq] at hstep
    obtain ⟨_, rfl⟩ := hstep
    exact Or.inr (Or.inl ⟨Or.inr (Or.inl rfl), rfl, rfl⟩)
  | annulla =>
    simp only [step, Option.ite_none_right_eq_some, Option.some.injEq] at hstep
    obtain ⟨_, rfl⟩ := hstep
    exact Or.inr (Or.inl ⟨Or.inr (Or.inr rfl), rfl, rfl⟩)
  | cerca =>
    simp only [step, Option.ite_none_right_eq_some, Option.some.injEq] at hstep
    obtain ⟨_, rfl⟩ := hstep
    exact Or.inr (Or.inr (Or.inl ⟨rfl, rfl, rfl⟩))
  | execute i o =>
    obtain ⟨y, hy, rfl⟩ := Option.map_eq_some_iff.mp hstep
    obtain ⟨x, hx, hexecute⟩ := Option.bind_eq_some_iff.mp hy
    exact Or.inr (Or.inr (Or.inr ⟨i, x, y, hx, rfl, rfl, Or.inl ⟨o, rfl, hexecute⟩⟩))
  | deliver i =>
    obtain ⟨y, hy, rfl⟩ := Option.map_eq_some_iff.mp hstep
    obtain ⟨x, hx, hdeliver⟩ := Option.bind_eq_some_iff.mp hy
    exact Or.inr (Or.inr (Or.inr ⟨i, x, y, hx, rfl, rfl, Or.inr ⟨rfl, hdeliver⟩⟩))

/-- Every plain step keeps the invariant. -/
theorem inv_step {s t : State} {a : Action} (hs : Inv zone signedIn s)
    (hplain : PlainStep zone s a) (hstep : step zone s a = some t) : Inv zone signedIn t := by
  obtain ⟨hist, hrun, hhist⟩ := hs.app
  rcases step_cases hstep with ⟨e, rfl, happ, hsearches⟩ | ⟨_, happ, hsearches⟩ |
    ⟨_, happ, hsearches⟩ | ⟨i, x, y, hx, happ, hsearches, hgoes⟩
  · have hkeeps := keeps_of_suffix hrun (hrun.snoc happ) (List.suffix_cons _ hist)
    refine ⟨⟨_, hrun.snoc happ, ?_⟩, ?_⟩
    · intro x hx
      rcases List.mem_append.mp hx with hx | hx
      · exact hplain x hx
      · exact hhist x hx
    · rw [hsearches]
      exact fun x hx => (hs.searches x hx).mono hkeeps
  · exact ⟨by rw [happ]; exact hs.app, by rw [happ, hsearches]; exact hs.searches⟩
  · refine ⟨by rw [happ]; exact hs.app, ?_⟩
    rw [happ, hsearches]
    refine List.forall_mem_append.mpr ⟨hs.searches, ?_⟩
    simp [Search.Sound]
  · refine ⟨by rw [happ]; exact hs.app, ?_⟩
    have hsound := hs.searches x (List.mem_of_getElem? hx)
    rw [happ, hsearches]
    apply forall_set hs.searches
    rcases hgoes with ⟨o, rfl, hexecute⟩ | ⟨rfl, hdeliver⟩
    · exact hsound.execute (represents_of_run hrun hhist) hexecute
    · exact hsound.deliver hdeliver

/-- An executed call of a search that does what the user asked for leaves such a search. -/
theorem Search.Right.execute {b : Backend} {o : Outcome} {x y : Search} (hx : x.Right)
    (hexecute : x.execute o b = some y) : y.Right := by
  unfold Search.execute at hexecute
  split at hexecute
  · cases hexecute
    trivial
  · split at hexecute <;> cases hexecute <;> exact hx
  · cases hexecute

/-- A step leads searches that do what the user asked for to such searches exactly if
an answer that arrives finds the dialog as it needs it. -/
theorem right_step_iff {s t : State} {a : Action} (hs : Inv zone signedIn s) (hright : s.Right)
    (hstep : step zone s a = some t) : t.Right ↔ InTime s a := by
  unfold State.Right
  rcases step_cases hstep with ⟨e, rfl, _, hsearches⟩ | ⟨ha, _, hsearches⟩ |
    ⟨rfl, _, hsearches⟩ | ⟨i, x, y, hx, _, hsearches, hgoes⟩
  · rw [hsearches]
    exact iff_of_true hright trivial
  · rw [hsearches]
    rcases ha with ⟨codice, rfl⟩ | rfl | rfl <;> exact iff_of_true hright trivial
  · rw [hsearches]
    refine iff_of_true (List.forall_mem_append.mpr ⟨hright, ?_⟩) trivial
    simp [Search.Right]
  · have hmem := List.mem_of_getElem? hx
    rw [hsearches]
    rcases hgoes with ⟨o, rfl, hexecute⟩ | ⟨rfl, hdeliver⟩
    · exact iff_of_true (forall_set hright ((hright x hmem).execute hexecute)) trivial
    · have hiff := Search.right_deliver_iff (hs.searches x hmem) (hright x hmem) hdeliver
      have hnew : y ∈ s.searches.set i y :=
        List.mem_set (List.getElem?_eq_some_iff.mp hx).1 y
      constructor
      · intro hafter z hz
        obtain rfl : x = z := Option.some.inj (hx.symm.trans hz)
        exact hiff.mp (hafter y hnew)
      · intro hready
        exact forall_set hright (hiff.mpr (hready x hx))

/-- **When a search does what the user asked for.** In every run of the dialog and of any
number of clients who confirm plain forms, every search goes on with the code that was
searched for, opens the machine that the code addresses or offers to register this code, and
ends with an exception only where a read fails, exactly if no first answer arrives after the
text was changed to another, and no answer that opens a page after the dialog was closed. -/
theorem always_right_iff {before : List (App.State × Event)} {app : App.State}
    (hbefore : Run (App.step zone) (App.State.start signedIn) before app)
    (hplainBefore : ∀ e ∈ eventLog zone before, EthosApp.Event.Plain e)
    {hist : List (State × Action)} {s : State} (hrun : Run (step zone) (State.start app) hist s)
    (hplain : Steps (PlainStep zone) hist) :
    Always State.Right hist s ↔ Steps InTime hist := by
  refine hrun.always_iff_of_steps (Inv zone signedIn) hplain ?_
    (fun _ _ _ hs hkind hstep => inv_step hs hkind hstep) ?_
    fun _ _ _ hs _ hright hstep => right_step_iff hs hright hstep
  · exact ⟨⟨before, hbefore, hplainBefore⟩, by simp [State.start]⟩
  · simp [State.Right, State.start]

/-- A code is searched for and the machine is opened, with a wait for both answers. -/
def searchFirst : List Action :=
  [.codice "M1", .cerca, .execute 0 .success, .deliver 0, .execute 0 .success, .deliver 0]

/-- The run of the dialog after that of the two clients. -/
def runSearchFirst : Option (List (State × Action) × State) :=
  exec (step (Zone.fixed 3600 Zone.hour_lt_day)) []
    (State.start (runTwoClients.get runTwoClients_isSome).2) searchFirst

/-- The actions on the dialog are possible one after the other. -/
theorem runSearchFirst_isSome : runSearchFirst.isSome := by decide +kernel

/-- The search for the machine of the two clients opens it. -/
theorem always_right_iff_first :
    Always State.Right (runSearchFirst.get runSearchFirst_isSome).1
      (runSearchFirst.get runSearchFirst_isSome).2 :=
  (always_right_iff (run_get runTwoClients_isSome) (by decide +kernel)
    (run_get runSearchFirst_isSome) (by unfold Steps; decide +kernel)).mpr
      (by unfold Steps; decide +kernel)

-- a text that is changed before the first answer sends the second read after an unknown code
example : (exec (step (Zone.fixed 3600 Zone.hour_lt_day)) []
    (State.start (runTwoClients.get runTwoClients_isSome).2)
    [.codice "M1", .cerca, .execute 0 .success, .codice "M2", .deliver 0, .execute 0 .success,
      .deliver 0]).map (fun r => r.2.searches) = some [.eccezione "M1" "M2" .success] := by
  decide +kernel

-- in a dialog that is closed meanwhile, a machine that was found is read but not opened
example : (exec (step (Zone.fixed 3600 Zone.hour_lt_day)) []
    (State.start (runTwoClients.get runTwoClients_isSome).2)
    [.codice "M1", .cerca, .execute 0 .success, .annulla, .deliver 0, .execute 0 .success,
      .deliver 0]).map (fun r => r.2.searches) = some [.chiuso "M1" "M1"] := by
  decide +kernel

end SearchControl

end App

end EthosApp
