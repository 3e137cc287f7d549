import EthosApp.Store.Readers

/-!
# What is there

Whether a document or an object is there is decided by the newest event that places it or
takes it away. Nothing is assumed of the codes and the dates: a code with slashes addresses
the document that its path names, and a date of any year is stored.
-/

namespace EthosApp

open Dart Firestore DocStore Runs

/-- What an event says of the presence of a machine's document. -/
def placesMachine (p : Path) (e : String × Event) : Option Bool :=
  match e.2 with
  | .put _ => if docPath e.1 = some p then some true else none
  | .remove => if docPath e.1 = some p then some false else none
  | _ => none

/-- A machine is taken away by a removal only. -/
theorem eq_remove_of_placesMachine {p : Path} {e : String × Event}
    (hplaces : placesMachine p e = some false) : e.2 = .remove := by
  unfold placesMachine at hplaces
  split at hplaces
  · simp at hplaces
  · assumption
  · cases hplaces

/-- What an event says of the presence of an entry's document. -/
def placesEntry (zone : Zone) (p : Path) (e : String × Event) : Option Bool :=
  match e.2 with
  | .check day k => if docPath (registroId zone (k.entry e.1 day)) = some p then some true else none
  | _ => none

/-- A check places the document of its identifier. -/
theorem placesEntry_eq_some_true {zone : Zone} {p : Path} {code : String} {e : Event} :
    placesEntry zone p (code, e) = some true ↔ ∃ day k, e = .check day k ∧
      docPath (registroId zone (k.entry code day)) = some p := by
  cases e <;> simp [placesEntry]

/-- No event takes an entry away. -/
theorem placesEntry_ne_false (zone : Zone) (p : Path) (e : String × Event) :
    placesEntry zone p e ≠ some false := by
  unfold placesEntry
  repeat' split
  all_goals simp

/-- What an event says of the presence of a stored object. -/
def placesSheet (object : Path) (e : String × Event) : Option Bool :=
  match e.2 with
  | .attach _ => if child ("schede/" ++ e.1) = object then some true else none
  | .detach => if child ("schede/" ++ e.1) = object then some false else none
  | _ => none

/-- A sheet is taken away by a deletion only. -/
theorem eq_detach_of_placesSheet {object : Path} {e : String × Event}
    (hplaces : placesSheet object e = some false) : e.2 = .detach := by
  unfold placesSheet at hplaces
  split at hplaces
  · simp at hplaces
  · assumption
  · cases hplaces

/-- What a log of events makes of the presence of everything: the newest event that speaks of
a document or an object decides, and where none does nothing changes. -/
structure Places (zone : Zone) (log : List (String × Event)) (b b' : Backend) : Prop where
  /-- The machines. -/
  controlli : ∀ p, (b'.controlli.lookup p).isSome =
    (log.findSome? (placesMachine p)).getD (b.controlli.lookup p).isSome
  /-- The entries of the register. -/
  registro : ∀ p, (b'.registroControlli.lookup p).isSome =
    (log.findSome? (placesEntry zone p)).getD (b.registroControlli.lookup p).isSome
  /-- The sheets. -/
  storage : ∀ object, (b'.storage object).isSome =
    (log.findSome? (placesSheet object)).getD (b.storage object).isSome

variable {zone : Zone} {b b' b'' : Backend}

/-- No events change nothing. -/
theorem Places.refl : Places zone [] b b := ⟨fun _ => rfl, fun _ => rfl, fun _ => rfl⟩

/-- A newer log decides before an older one. -/
theorem Places.trans {log log' : List (String × Event)} (hold : Places zone log b b')
    (hnew : Places zone log' b' b'') : Places zone (log' ++ log) b b'' := by
  constructor
  · intro p
    rw [hnew.controlli, hold.controlli, List.findSome?_append]
    cases log'.findSome? (placesMachine p) <;> rfl
  · intro p
    rw [hnew.registro, hold.registro, List.findSome?_append]
    cases log'.findSome? (placesEntry zone p) <;> rfl
  · intro object
    rw [hnew.storage, hold.storage, List.findSome?_append]
    cases log'.findSome? (placesSheet object) <;> rfl

/-- From the empty remote state on, the newest event that speaks of a document or an object
decides whether it is there. -/
theorem Places.isSome_iff {log : List (String × Event)} (h : Places zone log Backend.empty b) :
    (∀ p, (b.controlli.lookup p).isSome ↔ log.findSome? (placesMachine p) = some true) ∧
    (∀ p, (b.registroControlli.lookup p).isSome ↔
      log.findSome? (placesEntry zone p) = some true) ∧
    ∀ object, (b.storage object).isSome ↔ log.findSome? (placesSheet object) = some true := by
  have hnewest : ∀ o : Option Bool, o.getD false = true ↔ o = some true := by
    rintro (_ | _ | _) <;> decide
  simp [h.controlli, h.registro, h.storage, Backend.empty, hnewest]

/-- Where no event takes anything away, one that places something is enough. -/
theorem findSome?_eq_some_true {α : Type} {f : α → Option Bool} {log : List α}
    (hf : ∀ e ∈ log, f e ≠ some false) :
    log.findSome? f = some true ↔ ∃ e ∈ log, f e = some true := by
  constructor
  · exact List.exists_of_findSome?_eq_some
  · rintro ⟨e, he, hplaces⟩
    cases hfind : log.findSome? f with
    | none =>
      rw [List.findSome?_eq_none_iff.mp hfind e he] at hplaces
      cases hplaces
    | some v =>
      obtain ⟨e', he', hv⟩ := List.exists_of_findSome?_eq_some hfind
      cases v
      · exact absurd hv (hf e' he')
      · rfl

/-! ## What a form places -/

/-- A stored file speaks of its object alone. -/
theorem places_fileEvent {codice : String} {u : Option (String × File)}
    (hcontrolli : b'.controlli = b.controlli)
    (hregistro : b'.registroControlli = b.registroControlli)
    (hstorage : b'.storage = afterUpload b.storage u)
    (hu : ∀ path x, u = some (path, x) → path = "schede/" ++ codice) :
    Places zone (fileEvent codice u) b b' := by
  rcases u with _ | ⟨path, x⟩
  · constructor <;> simp [fileEvent, hcontrolli, hregistro, hstorage, afterUpload]
  · obtain rfl := hu path x rfl
    refine ⟨?_, ?_, ?_⟩
    · simp [fileEvent, hcontrolli, placesMachine]
    · simp [fileEvent, hregistro, placesEntry]
    · intro object
      by_cases hobject : object = child ("schede/" ++ codice)
      · simp [fileEvent, hstorage, afterUpload, placesSheet, hobject]
      · simp [fileEvent, hstorage, afterUpload, placesSheet, hobject, Ne.symm hobject]

/-- A record that is set places its document. -/
theorem places_put {w : Option (Path × Controllo)}
    (hcontrolli : b'.controlli =
      match w with
      | none => b.controlli
      | some (p, c) => setDoc p c.toJson b.controlli)
    (hregistro : b'.registroControlli = b.registroControlli) (hstorage : b'.storage = b.storage)
    (hw : ∀ p c, w = some (p, c) → docPath c.cod = some p) :
    Places zone (recordEvent .put w) b b' := by
  rcases w with _ | ⟨p, c⟩
  · constructor <;> simp [recordEvent, hcontrolli, hregistro, hstorage]
  · refine ⟨?_, ?_, ?_⟩
    · intro p'
      by_cases hp : p' = p
      · subst hp
        simp [recordEvent, hcontrolli, placesMachine, hw p' c rfl]
      · simp [recordEvent, hcontrolli, placesMachine, hw p c rfl, Ne.symm hp,
          lookup_setDoc_ne c.toJson b.controlli hp]
    · simp [recordEvent, hregistro, placesEntry]
    · simp [recordEvent, hstorage, placesSheet]

/-- A record that is updated neither places nor removes a document. -/
theorem places_change {w : Option (Path × Controllo)}
    (hcontrolli : b'.controlli =
      match w with
      | none => b.controlli
      | some (p, c) => updateDoc p c.toJson b.controlli)
    (hregistro : b'.registroControlli = b.registroControlli) (hstorage : b'.storage = b.storage) :
    Places zone (recordEvent .change w) b b' := by
  rcases w with _ | ⟨p, c⟩
  · constructor <;> simp [recordEvent, hcontrolli, hregistro, hstorage]
  · refine ⟨?_, ?_, ?_⟩
    · intro p'
      have hsame : ((updateDoc p c.toJson b.controlli).lookup p').isSome =
          (b.controlli.lookup p').isSome := by
        rw [Bool.eq_iff_iff, Option.isSome_iff_ne_none, Option.isSome_iff_ne_none, ne_eq, ne_eq,
          lookup_updateDoc_eq_none]
      simp [recordEvent, hcontrolli, placesMachine, hsame]
    · simp [recordEvent, hregistro, placesEntry]
    · simp [recordEvent, hstorage, placesSheet]

/-- An entry that is registered places its document. -/
theorem places_entryEvent {w : Option (Path × RegistroControllo)}
    (hregistro : b'.registroControlli =
      match w with
      | none => b.registroControlli
      | some (p, r) => setDoc p r.toJson b.registroControlli)
    (hcontrolli : b'.controlli = b.controlli) (hstorage : b'.storage = b.storage)
    (hw : ∀ p r, w = some (p, r) → docPath (registroId zone r) = some p ∧ r.AtMidnight) :
    Places zone (entryEvent w) b b' := by
  rcases w with _ | ⟨p, r⟩
  · constructor <;> simp [entryEvent, hcontrolli, hregistro, hstorage]
  · obtain ⟨hpath, hmidnight⟩ := hw p r rfl
    refine ⟨?_, ?_, ?_⟩
    · simp [entryEvent, hcontrolli, placesMachine]
    · intro p'
      by_cases hp : p' = p
      · subst hp
        simp [entryEvent, hregistro, placesEntry, Check.entry_of_midnight hmidnight, hpath]
      · simp [entryEvent, hregistro, placesEntry, Check.entry_of_midnight hmidnight, hpath,
          Ne.symm hp, lookup_setDoc_ne r.toJson b.registroControlli hp]
    · simp [entryEvent, hstorage, placesSheet]

/-- A form that sets its record and then stores its file. -/
theorem Add.places {f : Add} {oSet oPut : Outcome} :
    Places zone (fileEvent f.codice (f.uploads oPut) ++ recordEvent .put (f.writes oSet)) b
      (f.conferma oSet oPut b).2 := by
  have hput : Places zone (recordEvent .put (f.writes oSet)) b
      { b with controlli := (f.conferma oSet oPut b).2.controlli } :=
    places_put (f.conferma_controlli oSet oPut b) rfl rfl
      fun p c hwrites => (Confirms.add_spec.1 oSet p c hwrites).1
  exact hput.trans (places_fileEvent rfl (f.conferma_registro oSet oPut b)
    (f.conferma_storage oSet oPut b) (Confirms.add_spec.2 oPut))

/-- A form that updates its record and then stores its file. -/
theorem EditControl.places {f : EditControl} {oUpdate oPut : Outcome} :
    Places zone (fileEvent f.codice (f.uploads oPut) ++ recordEvent .change (f.writes oUpdate)) b
      (f.conferma oUpdate oPut b).2 := by
  have hchange : Places zone (recordEvent .change (f.writes oUpdate)) b
      { b with controlli := (f.conferma oUpdate oPut b).2.controlli } :=
    places_change (f.conferma_controlli oUpdate oPut b) rfl rfl
  exact hchange.trans (places_fileEvent rfl (f.conferma_registro oUpdate oPut b)
    (f.conferma_storage oUpdate oPut b) (Confirms.edit_spec.2 oPut))

/-- A form that registers its entry and updates its record. -/
theorem ControlCheck.places {f : ControlCheck} {oRegistro oUpdate : Outcome} {widget : Controllo}
    (hmidnight : ∀ p r, f.registers zone oRegistro widget = some (p, r) → r.AtMidnight) :
    Places zone
      (recordEvent .change (f.writes oUpdate widget) ++
        entryEvent (f.registers zone oRegistro widget)) b
      (f.conferma zone oRegistro oUpdate widget b).2 := by
  have hentry : Places zone (entryEvent (f.registers zone oRegistro widget)) b
      { b with
        registroControlli :=
          (f.conferma zone oRegistro oUpdate widget b).2.registroControlli } := by
    refine places_entryEvent (f.conferma_registro zone oRegistro oUpdate widget b) rfl rfl ?_
    intro p r hregisters
    obtain ⟨_, _, _, hpath⟩ := ControlCheck.registers_eq_some.mp hregisters
    exact ⟨hpath, hmidnight p r hregisters⟩
  exact hentry.trans (places_change (f.conferma_controlli zone oRegistro oUpdate widget b) rfl
    (f.conferma_storage zone oRegistro oUpdate widget b))

/-- A deletion that the server accepts takes the document and the object away. -/
theorem places_delete {oDoc oFile : Outcome} {c : String} {p : Path}
    (hp : writtenPath oDoc c = some p) :
    Places zone (if oFile = .success then [(c, .detach), (c, .remove)] else [(c, .remove)]) b
      (deleteControllo oDoc oFile c b).2 := by
  have hpath := (writtenPath_eq_some.mp hp).2
  rw [Confirms.delete_eq, hp]
  have hremove : Places zone [(c, .remove)] b { b with controlli := b.controlli.erase p } := by
    refine ⟨?_, fun _ => rfl, fun _ => rfl⟩
    intro p'
    by_cases hp' : p' = p
    · subst hp'
      simp [placesMachine, hpath]
    · simp [placesMachine, hpath, Ne.symm hp', AList.lookup_erase_ne hp']
  split
  · rename_i hfile
    have hdetach : Places zone [(c, .detach)] { b with controlli := b.controlli.erase p }
        { b with
          controlli := b.controlli.erase p
          storage := Function.update b.storage (child ("schede/" ++ c)) none } := by
      refine ⟨fun _ => rfl, fun _ => rfl, ?_⟩
      intro object
      by_cases hsheet : object = child ("schede/" ++ c)
      · simp [placesSheet, hsheet]
      · simp [placesSheet, hsheet, Ne.symm hsheet]
    simpa [hfile] using hremove.trans hdetach
  · rename_i hfile
    simpa [hfile] using hremove

namespace Confirms

/-- The events of a step decide what it places and takes away. -/
theorem places_step {s t : State} {a : Action} (hstep : step zone s a = some t) :
    Places zone (events zone s a) s.backend t.backend := by
  cases step_spec hstep with
  | read _ => exact .refl
  | @add c actions oSet oPut f hf =>
    simp only [events, hf]
    exact Add.places
  | @edit i actions oUpdate oPut r f hr hf =>
    simp only [events, hr, Option.bind_some, hf]
    exact EditControl.places
  | @check i actions oRegistro oUpdate r f hr hf =>
    simp only [events, hr, hf]
    refine ControlCheck.places fun p e hregisters => ?_
    have hregistered : registered zone s (.check i actions oRegistro oUpdate) = some (p, e) :=
      registered_check.mpr ⟨r, f, hr, hf, hregisters⟩
    exact registered_midnight hregistered
  | @delete c oDoc oFile =>
    simp only [events]
    cases hpath : writtenPath oDoc c with
    | none =>
      rw [delete_eq, hpath]
      exact .refl
    | some p => exact places_delete hpath

/-- **What is there.** After every run the documents and the objects that are there are those
that the newest events place. -/
theorem places_of_run {hist : List (State × Action)} {t : State}
    (hrun : Run (step zone) State.start hist t) :
    Places zone (eventLog zone hist) Backend.empty t.backend := by
  induction hrun with
  | nil => exact .refl
  | snoc _ hlast ih => exact ih.trans (places_step hlast)

/-- **The newest event decides.** After every run a code is found to be registered exactly if
the newest event that places or removes the document of its path places it, its sheet is
there exactly if the newest event that stores or deletes the object of its path stores it, and
an identifier is in the register exactly if a check with this identifier was registered. -/
theorem present_iff_newest {hist : List (State × Action)} {t : State}
    (hrun : Run (step zone) State.start hist t) :
    (∀ codice, isControlloPresente .success codice t.backend = true ↔
      ∃ p, docPath codice = some p ∧
        (eventLog zone hist).findSome? (placesMachine p) = some true) ∧
    (∀ codice, (t.backend.storage (child ("schede/" ++ codice))).isSome ↔
      (eventLog zone hist).findSome? (placesSheet (child ("schede/" ++ codice))) = some true) ∧
    ∀ p, (t.backend.registroControlli.lookup p).isSome ↔
      ∃ code day k, (code, .check day k) ∈ eventLog zone hist ∧
        docPath (registroId zone (Check.entry code day k)) = some p := by
  obtain ⟨hcontrolli, hregistro, hstorage⟩ := (places_of_run hrun).isSome_iff
  refine ⟨?_, fun codice => hstorage _, ?_⟩
  · intro codice
    unfold isControlloPresente
    cases docPath codice with
    | none => simp
    | some p => simp [hcontrolli]
  · intro p
    rw [hregistro, findSome?_eq_some_true fun e _ => placesEntry_ne_false zone p e]
    constructor
    · rintro ⟨⟨code, _⟩, hmem, hplaced⟩
      obtain ⟨day, k, rfl, hpath⟩ := placesEntry_eq_some_true.mp hplaced
      exact ⟨code, day, k, hmem, hpath⟩
    · rintro ⟨code, day, k, hmem, hpath⟩
      exact ⟨_, hmem, placesEntry_eq_some_true.mpr ⟨day, k, rfl, hpath⟩⟩

/-- A machine and one whose code is a path are registered, and the first one is deleted. -/
def deleteFirst : List Action :=
  [.add "M1" (fill "15/01/2022" "15/01/2023") .success .success,
    .add "M1/A/B" (fill "15/01/2022" "15/01/2023") .success .success,
    .delete "M1" .success .failure]

/-- The run with a deletion. -/
def runDelete : Option (List (State × Action) × State) :=
  exec (step (Zone.fixed 3600 Zone.hour_lt_day)) [] State.start deleteFirst

/-- The actions with a deletion are possible one after the other. -/
theorem runDelete_isSome : runDelete.isSome := by decide +kernel

/-- The code that is a path is found, and the deleted one is not. The sheet that was left is
still there, and is the one of the text with a separator in front, too. -/
theorem present_iff_newest_delete :
    isControlloPresente .success "M1/A/B" (runDelete.get runDelete_isSome).2.backend = true ∧
      ¬ isControlloPresente .success "M1" (runDelete.get runDelete_isSome).2.backend = true ∧
      ((runDelete.get runDelete_isSome).2.backend.storage
        (child ("schede/" ++ "/M1"))).isSome := by
  obtain ⟨hfound, hsheet, _⟩ := present_iff_newest (run_get runDelete_isSome)
  refine ⟨?_, ?_, (hsheet "/M1").mpr (by decide +kernel)⟩
  · exact (hfound "M1/A/B").mpr ⟨["M1", "A", "B"], by decide +kernel, by decide +kernel⟩
  · intro hpresent
    obtain ⟨p, hp, hplaced⟩ := (hfound "M1").mp hpresent
    have hpath : docPath "M1" = some ["M1"] := by decide +kernel
    obtain rfl : ["M1"] = p := Option.some.inj (hpath.symm.trans hp)
    revert hplaced
    decide +kernel

end Confirms

end EthosApp
