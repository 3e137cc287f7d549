import EthosApp.App.Clients
import EthosApp.Store.Codec

/-!
# What a client does

Every action of a client is one of eight kinds: it opens, replaces, fills, loads or closes
pages, signs the user out, confirms a form, or does nothing. Each kind says where the records
of a new page come from, that its form was filled by actions, and what happens to the routes.
-/

namespace EthosApp

open Dart Firestore DocStore

namespace App

/-- A record is what some reader decodes of a stored document. -/
def Decoded (b : Backend) (x : Controllo) : Prop :=
  ∃ (p : Path) (d : Doc) (h : Hour), b.controlli.lookup p = some d ∧
    Controllo.fromSnapshot d h.text = some x

/-- The form of a page is filled by actions on it. -/
def Page.Formed : Page → Prop
  | .add f => ∃ (code : String) (actions : List Add.Action),
    actions.foldlM Add.act (Add.initState code) = some f
  | .editControl x (some f) => ∃ (f₀ : EditControl) (actions : List EditControl.Action),
    EditControl.initState x = some f₀ ∧ actions.foldlM EditControl.act f₀ = some f
  | .controlCheck _ f => ∃ actions : List ControlCheck.Action,
    actions.foldlM ControlCheck.act ControlCheck.initState = some f
  | _ => True

/-- The form of a page passes validation. -/
def Page.Valid : Page → Prop
  | .add f => f.valid = true
  | .editControl _ (some f) => f.valid = true
  | .controlCheck _ f => f.valid = true
  | _ => False

/-- The action on the stack of routes, where an action always has the same one. -/
def Action.nav : Action → Navigation.Action
  | .goToNextPage => .goToNextPage
  | .entra => .entra
  | .logoutIcon => .logoutIcon
  | .logout => .logout
  | .aggiungi => .aggiungi
  | .cercaConCodice => .cercaConCodice
  | .scanner => .scanner
  | .esitoControlli => .esitoControlli
  | .macchineRegistrate => .macchineRegistrate
  | .mostraRiepilogo _ => .mostraRiepilogo
  | .si => .si
  | .modifica => .modifica
  | .effettuaControllo => .effettuaControllo
  | .apri => .conferma
  | .fotocamera => .fotocamera
  | .picker => .picker
  | .salva => .salva
  | .conferma _ _ => .conferma
  | .esci => .esci
  | .backButton => .backButton
  | _ => .back

/-- An action that neither signs the user out nor confirms a form. -/
def Action.isQuiet : Action → Bool
  | .logout => false
  | .conferma _ _ => false
  | _ => true

/-- A quiet action is no logout. -/
theorem Action.ne_logout {a : Action} (ha : a.isQuiet = true) : a ≠ .logout := by
  rintro rfl
  cases ha

/-- What a client does, in the eight ways that matter. -/
inductive Spec (zone : Zone) (b : Backend) : Client → Action → Client → Backend → Prop
  /-- Nothing is opened or closed. -/
  | stay {c : Client} {a : Action} (ha : a.isQuiet = true) : Spec zone b c a c b
  /-- A page is opened. A form is confirmed only where it is valid. -/
  | push {top p : Page} {rest : List Page} {signedIn : Bool} {a : Action} (ha : a.isQuiet = true)
      (na : Navigation.Action) (hna : ∀ f, Navigation.signedInAfter f na = f)
      (hhandler : ∀ f, Navigation.handler f top.route na = some [.push p.route])
      (hformed : p.Formed) (hsave : p.route = .saveDialog → top.Valid)
      (hheld : ∀ x ∈ p.held, x ∈ top.held ∨ Decoded b x) :
      Spec zone b ⟨top :: rest, signedIn⟩ a ⟨p :: top :: rest, signedIn⟩ b
  /-- A page is replaced by another. -/
  | replace {top p : Page} {rest : List Page} {signedIn signedIn' : Bool} {a : Action}
      (ha : a.isQuiet = true) (na : Navigation.Action) (hna : na ≠ .logout)
      (hhandler : Navigation.handler signedIn top.route na = some [.pushReplacement p.route])
      (hsignedIn : signedIn' = Navigation.signedInAfter signedIn na)
      (hformed : p.Formed) (hsave : p.route ≠ .saveDialog)
      (hheld : ∀ x ∈ p.held, x ∈ top.held ∨ Decoded b x) :
      Spec zone b ⟨top :: rest, signedIn⟩ a ⟨p :: rest, signedIn'⟩ b
  /-- The data of a page changes. -/
  | fill {top p : Page} {rest : List Page} {signedIn : Bool} {a : Action} (ha : a.isQuiet = true)
      (hroute : p.route = top.route) (hformed : top.Formed → p.Formed)
      (hheld : ∀ x ∈ p.held, x ∈ top.held) :
      Spec zone b ⟨top :: rest, signedIn⟩ a ⟨p :: rest, signedIn⟩ b
  /-- The list of a page is loaded. -/
  | load {c : Client} {n : ℕ} {p q : Page} {a : Action} (ha : a.isQuiet = true)
      (hp : c.stack[n]? = some p) (hroute : q.route = p.route) (hformed : q.Formed)
      (hvalid : ¬ p.Valid) (hheld : ∀ x ∈ q.held, Decoded b x) :
      Spec zone b c a { c with stack := c.stack.set n q } b
  /-- One or two pages are closed. -/
  | close (closed : List Page) {rest : List Page} {q : Page} {signedIn : Bool} {a : Action}
      (ha : a.isQuiet = true) (nas : List Navigation.Action) (hnas : .logout ∉ nas)
      (hfold : ∀ below, nas.foldlM Navigation.step
        ⟨closed.map Page.route ++ q.route :: below, signedIn⟩ = some ⟨q.route :: below, signedIn⟩) :
      Spec zone b ⟨closed ++ q :: rest, signedIn⟩ a ⟨q :: rest, signedIn⟩ b
  /-- The user signs out. -/
  | logout {below : Page} {rest : List Page} {signedIn : Bool} :
      Spec zone b ⟨.logoutDialog :: below :: rest, signedIn⟩ .logout ⟨.login :: rest, false⟩ b
  /-- A form is confirmed. -/
  | save {form : Page} {rest : List Page} {signedIn : Bool} {presente : Option Bool}
      {o o' : Outcome} {now : DateTime} {h : Command}
      (hconfirm : confirm zone o o' presente form = some h) :
      Spec zone b ⟨.saveDialog presente :: form :: rest, signedIn⟩ (.conferma o o')
        (saved now ⟨.saveDialog presente :: form :: rest, signedIn⟩ (h b)).1
        (saved now ⟨.saveDialog presente :: form :: rest, signedIn⟩ (h b)).2

/-- What is opened for a code. -/
theorem lookup_spec {o : Outcome} {codice : String} {b : Backend} {p : Page}
    (hlookup : lookup o codice b = some p) :
    (∃ x, p = .controlView x ∧ Decoded b x) ∨ p = .unregisteredMachineAlert codice := by
  unfold lookup at hlookup
  split at hlookup
  · obtain ⟨x, hx, rfl⟩ := Option.map_eq_some_iff.mp hlookup
    refine Or.inl ⟨x, rfl, ?_⟩
    simp only [getControllo, Option.bind_eq_bind, Option.bind_eq_some_iff] at hx
    obtain ⟨path, _, d, hd, hdecodes⟩ := hx
    exact ⟨path, d, Hour.zero, hd, by rwa [zero_text]⟩
  · cases hlookup
    exact Or.inr rfl

/-- The cards of a loaded list are decoded of stored documents. -/
theorem decoded_of_shown {o : Outcome} {b : Backend} {h : Hour} {ds : List Doc} {x : Controllo}
    (hdocs : ∀ d ∈ ds, d ∈ docs b.controlli)
    (hx : x ∈ shown o (ds.mapM fun d => Controllo.fromSnapshot d h.text)) : Decoded b x := by
  cases o with
  | failure => cases hx
  | success =>
    cases hcards : ds.mapM fun d => Controllo.fromSnapshot d h.text with
    | none =>
      rw [hcards] at hx
      cases hx
    | some cards =>
      rw [hcards] at hx
      obtain ⟨d, hd, hdecode⟩ := mem_of_mapM hcards hx
      obtain ⟨p, _, hdoc⟩ := mem_docs.mp (hdocs d hd)
      exact ⟨p, d, h, hdoc, hdecode⟩

/-- A page whose list has been loaded shows decoded documents. -/
theorem load_spec {o : Outcome} {b : Backend} {p q : Page} (hload : p.load o b = some q) :
    q.route = p.route ∧ q.Formed ∧ ¬ p.Valid ∧ ∀ x ∈ q.held, Decoded b x := by
  unfold Page.load at hload
  split at hload
  · cases hload
    refine ⟨rfl, trivial, id, fun x hx => ?_⟩
    exact decoded_of_shown (h := Hour.ten) (fun d hd => List.mem_of_mem_filter hd) hx
  · cases hload
    refine ⟨rfl, trivial, id, fun x hx => ?_⟩
    refine decoded_of_shown (o := o) (h := Hour.zero) (fun d hd => hd) ?_
    rw [zero_text]
    exact hx
  · cases hload

/-- A page that lies on another is closed. -/
theorem pop_eq_some {top : Page} {rest : List Page} {signedIn : Bool} {c : Client}
    (hpop : (Client.mk (top :: rest) signedIn).pop = some c) :
    ∃ q rest', rest = q :: rest' ∧ c = ⟨q :: rest', signedIn⟩ := by
  cases rest with
  | nil => cases hpop
  | cons q rest =>
    cases hpop
    exact ⟨q, rest, rfl, rfl⟩

/-- A page is opened whose records, if any, the top page holds. -/
theorem Spec.push_nav {zone : Zone} {b : Backend} {top p : Page} {rest : List Page}
    {signedIn : Bool} {a : Action}
    (hhandler : ∀ f, Navigation.handler f top.route a.nav = some [.push p.route])
    (ha : a.isQuiet = true) (hna : ∀ f, Navigation.signedInAfter f a.nav = f) (hformed : p.Formed)
    (hsave : p.route = .saveDialog → top.Valid) (hheld : ∀ x ∈ p.held, x ∈ top.held) :
    Spec zone b ⟨top :: rest, signedIn⟩ a ⟨p :: top :: rest, signedIn⟩ b :=
  .push ha a.nav hna hhandler hformed hsave fun x hx => Or.inl (hheld x hx)

section Spec

variable {zone : Zone} {now : DateTime} {b : Backend} {top : Page} {rest : List Page}
  {signedIn : Bool} {a : Action} {r : Client × Backend}

/-- A card of a list is opened. -/
theorem spec_card {cards : List Controllo} {i : ℕ} (hcards : top.held = cards)
    (htop : ∀ f, Navigation.handler f top.route .mostraRiepilogo = some [.push .controlView])
    (h : (cards[i]?.map fun x => ((Client.mk (top :: rest) signedIn).push (.controlView x), b)) =
      some r) :
    Spec zone b ⟨top :: rest, signedIn⟩ (.mostraRiepilogo i) r.1 r.2 := by
  obtain ⟨x, hx, rfl⟩ := Option.map_eq_some_iff.mp h
  refine .push_nav htop rfl (fun _ => rfl) trivial (by simp [Page.route]) ?_
  intro y hy
  rw [hcards, List.mem_singleton.mp hy]
  exact List.mem_of_getElem? hx

/-- A form is saved: the dialog is opened where the form is valid. -/
theorem spec_salva {valid : Bool} (hvalid : valid = true → top.Valid)
    (htop : ∀ f, Navigation.handler f top.route .salva = some [.push .saveDialog])
    (h : (if valid then some ((Client.mk (top :: rest) signedIn).push (.saveDialog none), b)
      else some (Client.mk (top :: rest) signedIn, b)) = some r) :
    Spec zone b ⟨top :: rest, signedIn⟩ .salva r.1 r.2 := by
  split at h
  · rename_i hv
    cases h
    exact .push_nav htop rfl (fun _ => rfl) trivial (fun _ => hvalid hv)
      (by simp [Page.held])
  · cases h
    exact .stay rfl

/-- A code is looked up: the machine is opened, or the offer to register it. -/
theorem spec_cerca {codice : String} {o : Outcome}
    (h : (match lookup o codice b with
      | some p => some ((Client.mk (.searchDialog codice :: rest) signedIn).push p, b)
      | none => some (Client.mk (.searchDialog codice :: rest) signedIn, b)) = some r) :
    Spec zone b ⟨.searchDialog codice :: rest, signedIn⟩ (.cerca o) r.1 r.2 := by
  split at h
  · rename_i p hlookup
    cases h
    rcases lookup_spec hlookup with ⟨x, rfl, hx⟩ | rfl
    · refine .push rfl (.cerca true) (fun _ => rfl) (fun _ => rfl) trivial
        (by simp [Page.route]) ?_
      intro y hy
      rw [List.mem_singleton.mp hy]
      exact Or.inr hx
    · exact .push rfl (.cerca false) (fun _ => rfl) (fun _ => rfl) trivial
        (by simp [Page.route]) (by simp [Page.held])
  · cases h
    exact .stay rfl

/-- A scanned code is looked up: the machine takes the place of the scanner, or the offer to
register it is opened. -/
theorem spec_inquadra {code : String} {o : Outcome}
    (h : (match lookup o code b with
      | some (.controlView x) =>
        some ((Client.mk (.qrCode :: rest) signedIn).replace (.controlView x), b)
      | some p => some ((Client.mk (.qrCode :: rest) signedIn).push p, b)
      | none => some (Client.mk (.qrCode :: rest) signedIn, b)) = some r) :
    Spec zone b ⟨.qrCode :: rest, signedIn⟩ (.inquadra code o) r.1 r.2 := by
  cases hlookup : lookup o code b with
  | none =>
    rw [hlookup] at h
    cases h
    exact .stay rfl
  | some p =>
    rw [hlookup] at h
    rcases lookup_spec hlookup with ⟨x, rfl, hx⟩ | rfl
    · cases h
      refine .replace rfl (.cerca true) (by simp) rfl rfl trivial (by simp [Page.route]) ?_
      intro y hy
      rw [List.mem_singleton.mp hy]
      exact Or.inr hx
    · cases h
      exact .push rfl (.cerca false) (fun _ => rfl) (fun _ => rfl) trivial
        (by simp [Page.route]) (by simp [Page.held])

/-- The top page is replaced by another whose records, if any, it holds. -/
theorem Spec.replace_nav {p : Page}
    (hhandler : Navigation.handler signedIn top.route a.nav = some [.pushReplacement p.route])
    (ha : a.isQuiet = true) (hna : a.nav ≠ .logout)
    (hsignedIn : Navigation.signedInAfter signedIn a.nav = signedIn) (hformed : p.Formed)
    (hsave : p.route ≠ .saveDialog) (hheld : ∀ x ∈ p.held, x ∈ top.held) :
    Spec zone b ⟨top :: rest, signedIn⟩ a ⟨p :: rest, signedIn⟩ b :=
  .replace ha a.nav hna hhandler hsignedIn.symm hformed hsave fun x hx => Or.inl (hheld x hx)

/-- An action on a form is one more action on it. -/
theorem foldlM_snoc {β γ : Type} {act : β → γ → Option β} {f f' f'' : β} {actions : List γ} {x : γ}
    (hrun : actions.foldlM act f = some f') (hact : act f' x = some f'') :
    (actions ++ [x]).foldlM act f = some f'' := by
  rw [List.foldlM_append, hrun]
  simp [hact]

/-- An action on the form of a page is one more action on it. -/
theorem spec_compila {β γ : Type} {act : β → γ → Option β} (page : β → Page) {f : β} {x : γ}
    (hroute : ∀ f', (page f').route = (page f).route)
    (hheld : ∀ f', (page f').held = (page f).held)
    (hformed : ∀ f', act f x = some f' → (page f).Formed → (page f').Formed) (ha : a.isQuiet = true)
    (h : ((act f x).map fun f' => ((Client.mk (page f :: rest) signedIn).replace (page f'), b)) =
      some r) :
    Spec zone b ⟨page f :: rest, signedIn⟩ a r.1 r.2 := by
  obtain ⟨f', hf', rfl⟩ := Option.map_eq_some_iff.mp h
  exact .fill ha (hroute f') (hformed f' hf') fun y hy => by rwa [hheld] at hy

/-- The lookup of the dialog that confirms a new machine is answered. -/
theorem spec_presente {presente : Option Bool} {o : Outcome}
    (h : handle zone now b ⟨.saveDialog presente :: rest, signedIn⟩ (.saveDialog presente)
      (.presente o) = some r) :
    Spec zone b ⟨.saveDialog presente :: rest, signedIn⟩ (.presente o) r.1 r.2 := by
  unfold handle at h
  dsimp only at h
  split at h
  · split at h <;> cases h <;> exact .fill rfl rfl (fun _ => trivial) (by simp [Page.held])
  · cases h

/-- What the top page does with an action. -/
theorem handle_spec (h : handle zone now b ⟨top :: rest, signedIn⟩ top a = some r) :
    Spec zone b ⟨top :: rest, signedIn⟩ a r.1 r.2 := by
  have hadd : ∀ code, (Page.add (Add.initState code)).Formed := fun code => ⟨code, [], rfl⟩
  have hwhole := h
  unfold handle at h
  -- one case for every line of the definition
  split at h
  -- most lines open, replace or close one page, or change its text
  all_goals first
    | cases h
      exact .push_nav (fun _ => rfl) rfl (fun _ => rfl) trivial
        (by simp [Page.route]) (by simp [Page.held])
    | cases h
      exact .push_nav (fun _ => rfl) rfl (fun _ => rfl) (hadd _)
        (by simp [Page.route]) (by simp [Page.held])
    | obtain ⟨c, hpop, rfl⟩ := Option.map_eq_some_iff.mp h
      obtain ⟨q, rest', rfl, rfl⟩ := pop_eq_some hpop
      exact .close [_] rfl [.backButton] (by simp) (fun _ => rfl)
    | exact spec_card rfl (fun _ => rfl) h
    | exact spec_salva (fun hv => hv) (fun _ => rfl) h
    | exact spec_presente hwhole
    | exact spec_inquadra h
    | cases h
      exact .fill rfl rfl (fun _ => trivial) (by simp [Page.held])
    | cases h
      exact .replace_nav rfl rfl (by simp [Action.nav]) rfl trivial (by simp [Page.route])
        (by simp [Page.held])
    | cases h
      exact .replace_nav rfl rfl (by simp [Action.nav]) rfl (hadd _) (by simp [Page.route])
        (by simp [Page.held])
    | skip
  · cases h
    cases signedIn
    · exact .replace rfl .goToNextPage (by simp) rfl rfl trivial (by simp [Page.route])
        (by simp [Page.held])
    · exact .replace rfl .goToNextPage (by simp) rfl rfl trivial (by simp [Page.route])
        (by simp [Page.held])
  · cases h
    exact .replace rfl .entra (by simp) rfl rfl trivial (by simp [Page.route])
      (by simp [Page.held])
  · obtain ⟨c, hpop, rfl⟩ := Option.map_eq_some_iff.mp h
    obtain ⟨q, rest', rfl, rfl⟩ := pop_eq_some hpop
    exact .logout
  · split at h
    · cases h
      exact .stay rfl
    · exact spec_cerca h
  · rename_i x
    cases h
    refine .replace_nav rfl rfl (by simp [Action.nav]) rfl ?_ (by simp [Page.route])
      fun y hy => hy
    cases hinit : EditControl.initState x with
    | none => trivial
    | some f => exact ⟨f, [], hinit, rfl⟩
  · cases h
    exact .replace_nav rfl rfl (by simp [Action.nav]) rfl ⟨[], rfl⟩ (by simp [Page.route])
      fun y hy => hy
  · refine spec_compila Page.add (fun _ => rfl) (fun _ => rfl) ?_ rfl h
    rintro f' hf' ⟨code, actions, hrun⟩
    exact ⟨code, _, foldlM_snoc hrun hf'⟩
  · rename_i x f action
    refine spec_compila (fun f => Page.editControl x (some f)) (fun _ => rfl) (fun _ => rfl)
      ?_ rfl h
    rintro f' hf' ⟨f₀, actions, hinit, hrun⟩
    exact ⟨f₀, _, hinit, foldlM_snoc hrun hf'⟩
  · rename_i x f action
    refine spec_compila (Page.controlCheck x) (fun _ => rfl) (fun _ => rfl) ?_ rfl h
    rintro f' hf' ⟨actions, hrun⟩
    exact ⟨_, foldlM_snoc hrun hf'⟩
  · split at h
    · rename_i form tail hstack
      obtain rfl : rest = form :: tail := (List.cons.inj hstack).2
      obtain ⟨k, hk, rfl⟩ := Option.map_eq_some_iff.mp h
      exact .save hk
    · cases h
  · obtain ⟨c, hpop, h⟩ := Option.bind_eq_some_iff.mp h
    obtain ⟨c', hpop', rfl⟩ := Option.map_eq_some_iff.mp h
    obtain ⟨form, rest', rfl, rfl⟩ := pop_eq_some hpop
    obtain ⟨q, rest'', rfl, rfl⟩ := pop_eq_some hpop'
    exact .close [_, _] rfl [.esci] (by simp) (fun _ => rfl)
  · cases h
  · -- the form of an edit that could not be built is left without a question
    obtain ⟨c, hpop, rfl⟩ := Option.map_eq_some_iff.mp h
    obtain ⟨q, rest', rfl, rfl⟩ := pop_eq_some hpop
    cases top with
    | editControl x f =>
      cases f with
      | none => exact .close [_] rfl [.back, .esci] (by simp) (fun _ => rfl)
      | some f => simp_all
    | _ => first
      | exact .close [_] rfl [.back] (by simp) (fun _ => rfl)
      | simp_all
  · cases h

/-- **What a client does.** Every action is one of the eight. -/
theorem clientStep_spec {c : Client} (h : clientStep zone now b c a = some r) :
    Spec zone b c a r.1 r.2 := by
  have htop : ∀ {a}, (c.stack.head?.bind fun p => handle zone now b c p a) = some r →
      Spec zone b c a r.1 r.2 := by
    intro a h
    obtain ⟨p, hp, hhandle⟩ := Option.bind_eq_some_iff.mp h
    obtain ⟨stack, signedIn⟩ := c
    obtain ⟨rest, rfl⟩ := List.head?_eq_some_iff.mp hp
    exact handle_spec hhandle
  unfold clientStep at h
  split at h
  · obtain ⟨q, hq, rfl⟩ := Option.map_eq_some_iff.mp h
    obtain ⟨p, hp, hload⟩ := Option.bind_eq_some_iff.mp hq
    obtain ⟨hroute, hformed, hvalid, hheld⟩ := load_spec hload
    exact .load rfl hp hroute hformed hvalid hheld
  · exact htop h

end Spec

end App

end EthosApp
