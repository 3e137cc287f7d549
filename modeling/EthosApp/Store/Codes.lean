import EthosApp.Store.Decodable

/-!
# Codes as identifiers

A confirmed `Add` sets the document that `doc(codice)` addresses. The dialogs of several
Adds may be open at the same time, so that what they have read does not restrict the
order in which they are confirmed. A code identifies its machine if it has exactly one
segment and no other code in play has the same segment: a code with a separator may
address a document that a query does not see, and codes that differ by a separator at an
end address one document.
-/

namespace EthosApp

open Dart Firestore DocStore Runs

namespace Codes

/-- The remote state, and the codes of the machines added so far. -/
structure State where
  /-- The remote state. -/
  backend : Backend
  /-- The codes under which a document was set, newest first. -/
  codes : List String

/-- The state before any use of the app. -/
def State.start : State := ⟨Backend.empty, []⟩

/-- A confirmed `Add`, with the actions that filled its form and the answers of the server. -/
structure Action where
  /-- The code that the form was opened with. -/
  c : String
  /-- The actions that filled the form. -/
  actions : List Add.Action
  /-- The answer to the set. -/
  oSet : Outcome
  /-- The answer to the upload. -/
  oPut : Outcome

/-- The record that a step sets, with its document. -/
def written (a : Action) : Option (Path × Controllo) :=
  (Add.session a.c a.actions).bind fun f => f.writes a.oSet

/-- One step. -/
def step (s : State) (a : Action) : Option State := do
  let f ← Add.session a.c a.actions
  return {
    backend := (f.conferma a.oSet a.oPut s.backend).2
    codes := ((f.writes a.oSet).map fun w => w.2.cod).toList ++ s.codes }

/-- A code that is typed or scanned, or under which a machine was added. -/
def InPlay (scanned : Set String) (s : State) (x : String) : Prop := x ∈ scanned ∨ x ∈ s.codes

/-- The codes identify the machines one to one. -/
structure Identified (scanned : Set String) (s : State) : Prop where
  /-- Two distinct codes in play never address the same document. -/
  distinct : ∀ c x, InPlay scanned s c → InPlay scanned s x →
    ∀ p, docPath c = some p → docPath x = some p → x = c
  /-- Exactly the codes of machines are found. -/
  found : ∀ x, InPlay scanned s x → (isControlloPresente .success x s.backend = true ↔ x ∈ s.codes)
  /-- The machine read under a code has this code. -/
  read : ∀ c ∈ s.codes, ∃ m, getControllo c s.backend = some m ∧ m.cod = c
  /-- The machines can be listed, and each code occurs once. -/
  listed : ∃ ms, getAllControls s.backend = some ms ∧
    ∀ c ∈ s.codes, (ms.map Controllo.cod).count c = 1

/-- What every run of Adds keeps: the documents are those of the codes. -/
structure Inv (s : State) : Prop where
  /-- A stored document is the record of a machine, under the path of its code. -/
  stored : ∀ p d, s.backend.controlli.lookup p = some d → ∃ c : Controllo, d = ofMap c.toJson ∧
    docPath c.cod = some p ∧ c.cod ∈ s.codes ∧
    c.dataUltimoControllo.date.year.natAbs < 10 ^ 6 ∧
    c.dataProssimoControllo.date.year.natAbs < 10 ^ 6
  /-- Every code addresses a stored document. -/
  addressed : ∀ c ∈ s.codes, ∃ p, docPath c = some p ∧ (s.backend.controlli.lookup p).isSome

/-- What a step does to the machines and the codes. -/
theorem step_eq_some {s t : State} {a : Action} (hstep : step s a = some t) :
    (written a = none ∧ t.backend.controlli = s.backend.controlli ∧ t.codes = s.codes) ∨
    ∃ p c, written a = some (p, c) ∧ docPath c.cod = some p ∧
      c.dataUltimoControllo.date.year.natAbs < 10 ^ 6 ∧
      c.dataProssimoControllo.date.year.natAbs < 10 ^ 6 ∧
      t.backend.controlli = setDoc p c.toJson s.backend.controlli ∧ t.codes = c.cod :: s.codes := by
  simp only [step, Option.bind_eq_bind, Option.bind_eq_some_iff, Option.pure_def,
    Option.some.injEq] at hstep
  obtain ⟨f, hf, rfl⟩ := hstep
  have hcontrolli := f.conferma_controlli a.oSet a.oPut s.backend
  cases hw : f.writes a.oSet with
  | none =>
    rw [hw] at hcontrolli
    exact Or.inl ⟨by simp [written, hf, hw], hcontrolli, by simp⟩
  | some w =>
    obtain ⟨p, c⟩ := w
    rw [hw] at hcontrolli
    obtain ⟨hform, _, hpath⟩ := Add.writes_eq_some.mp hw
    obtain ⟨hu, hv, _⟩ := Add.controllo_eq_some.mp hform
    exact Or.inr ⟨p, c, by simp [written, hf, hw], hpath, DateTime.natAbs_year_of_parse hu,
      DateTime.natAbs_year_of_parse hv, hcontrolli, by simp⟩

/-- The documents of the codes after a step. -/
theorem Inv.step {s t : State} {a : Action} (hs : Inv s) (hstep : step s a = some t) : Inv t := by
  rcases step_eq_some hstep with ⟨_, hcontrolli, hcodes⟩ |
    ⟨p, c, _, hpath, hultimo, hprossimo, hcontrolli, hcodes⟩
  · obtain ⟨hstored, haddressed⟩ := hs
    constructor
    · rwa [hcontrolli, hcodes]
    · rwa [hcontrolli, hcodes]
  · constructor
    · intro q d hq
      rw [hcontrolli] at hq
      rw [hcodes]
      by_cases hqp : q = p
      · subst hqp
        rw [lookup_setDoc] at hq
        cases hq
        exact ⟨c, rfl, hpath, List.mem_cons_self, hultimo, hprossimo⟩
      · rw [lookup_setDoc_ne _ _ hqp] at hq
        obtain ⟨c', hd, hpath', hmem, hyears⟩ := hs.stored q d hq
        exact ⟨c', hd, hpath', List.mem_cons_of_mem _ hmem, hyears⟩
    · intro c' hc'
      rw [hcodes] at hc'
      rw [hcontrolli]
      rcases List.mem_cons.mp hc' with rfl | hc'
      · exact ⟨p, hpath, by simp⟩
      · obtain ⟨q, hq, hdoc⟩ := hs.addressed c' hc'
        refine ⟨q, hq, ?_⟩
        by_cases hqp : q = p
        · subst hqp
          simp
        · rwa [lookup_setDoc_ne _ _ hqp]

/-! ## What identification means for the codes -/

/-- A record decodes from its document exactly if both dates are storable. -/
theorem fromSnapshot_record {c : Controllo}
    (hultimo : c.dataUltimoControllo.date.year.natAbs < 10 ^ 6)
    (hprossimo : c.dataProssimoControllo.date.year.natAbs < 10 ^ 6) :
    (Controllo.fromSnapshot (ofMap c.toJson)).isSome ↔
      c.dataUltimoControllo.Storable ∧ c.dataProssimoControllo.Storable := by
  rw [← DateTime.parse_isoDay_hour Hour.zero hultimo,
    ← DateTime.parse_isoDay_hour Hour.zero hprossimo, ofMap_eq_overwrite,
    Controllo.fromSnapshot_overwrite_eq, zero_text]
  cases DateTime.parse (c.dataUltimoControllo.isoDay ++ " " ++ "00:00:00") <;>
    cases DateTime.parse (c.dataProssimoControllo.isoDay ++ " " ++ "00:00:00") <;>
      simp [Controllo.schedaOf, asNullableString]

/-- The code that is decoded from the document of a record. -/
theorem cod_of_record {c m : Controllo}
    (hdecode : Controllo.fromSnapshot (ofMap c.toJson) = some m) : m.cod = c.cod := by
  have hcodice := (Controllo.fromSnapshot_spec hdecode).1
  have hdoc : asString (ofMap c.toJson "codice") = some c.cod := rfl
  rw [hdoc] at hcodice
  exact (Option.some.inj hcodice).symm

/-- Every machine's code is the only one in play with its one segment. -/
def Single (scanned : Set String) (s : State) : Prop :=
  ∀ c ∈ s.codes, ∃ seg, docPath c = some [seg] ∧
    ∀ x, InPlay scanned s x → docPath x = some [seg] → x = c

/-- All machines decode. -/
abbrev Decode (s : State) : Prop :=
  AllDocs (fun _ d => (Controllo.fromSnapshot d).isSome) s.backend.controlli

/-- What is read under the code of a machine, where no other code shares its document. -/
theorem exists_read {s : State} (hs : Inv s) (hdecode : Decode s) {c : String} (hc : c ∈ s.codes)
    (hdistinct : ∀ c' ∈ s.codes, ∀ p, docPath c = some p → docPath c' = some p → c' = c) :
    ∃ p d m, docPath c = some p ∧ s.backend.controlli.lookup p = some d ∧
      Controllo.fromSnapshot d = some m ∧ m.cod = c := by
  obtain ⟨p, hpath, hdoc⟩ := hs.addressed c hc
  obtain ⟨d, hdoc⟩ := Option.isSome_iff_exists.mp hdoc
  obtain ⟨r, rfl, hr, hmem, _⟩ := hs.stored p d hdoc
  obtain ⟨m, hm⟩ := Option.isSome_iff_exists.mp (hdecode p _ hdoc)
  refine ⟨p, _, m, hpath, hdoc, hm, ?_⟩
  rw [cod_of_record hm]
  exact hdistinct _ hmem p hpath hr

/-- The list of machines has one record for each document, with the code of its path. -/
theorem exists_listed {s : State} (hs : Inv s) (hdecode : Decode s) :
    ∃ ms, getAllControls s.backend = some ms ∧ (ms.map fun m => docPath m.cod).Nodup ∧
      ∀ m, m ∈ ms ↔ ∃ k d, k.length = 1 ∧ s.backend.controlli.lookup k = some d ∧
        Controllo.fromSnapshot d = some m := by
  apply exists_getAllControls
  intro p d hdoc
  obtain ⟨r, rfl, hr, _⟩ := hs.stored p d hdoc
  obtain ⟨m, hm⟩ := Option.isSome_iff_exists.mp (hdecode p _ hdoc)
  exact ⟨m, hm, by rw [cod_of_record hm, hr]⟩

/-- The codes that are typed or scanned are still distinct without the separators at their
ends, apart from those that address no document. -/
def Apart (scanned : Set String) : Prop :=
  ∀ c ∈ scanned, ∀ x ∈ scanned, (docPath c).isSome → (docPath x).isSome → bare x = bare c → x = c

/-- Codes that are apart do not share a document. -/
theorem Apart.eq {scanned : Set String} (hapart : Apart scanned) {c x : String} {p : Path}
    (hc : c ∈ scanned) (hx : x ∈ scanned) (hcp : docPath c = some p) (hxp : docPath x = some p) :
    x = c :=
  hapart c hc x hx (by simp [hcp]) (by simp [hxp]) ((docPath_eq_iff hxp hcp).mp rfl)

/-- Codes in play do not share a document if those that are typed or scanned are apart, and
each machine's code is alone with its segment. -/
theorem distinct_of_single {scanned : Set String} {s : State} (hapart : Apart scanned)
    (hsingle : Single scanned s) {c x : String} (hc : InPlay scanned s c)
    (hx : InPlay scanned s x) {p : Path} (hcp : docPath c = some p) (hxp : docPath x = some p) :
    x = c := by
  by_cases hmem : c ∈ s.codes
  · obtain ⟨seg, hseg, honly⟩ := hsingle c hmem
    rw [hcp] at hseg
    exact honly x hx (by rw [hxp, hseg])
  · by_cases hmem' : x ∈ s.codes
    · obtain ⟨seg, hseg, honly⟩ := hsingle x hmem'
      rw [hxp] at hseg
      exact (honly c hc (by rw [hcp, hseg])).symm
    · exact hapart.eq (hc.resolve_right hmem) (hx.resolve_right hmem') hcp hxp

/-- Identified machines decode. -/
theorem Identified.decode {scanned : Set String} {s : State} (hs : Inv s)
    (hidentified : Identified scanned s) : Decode s := by
  intro p d hdoc
  obtain ⟨r, rfl, hr, hmem, _⟩ := hs.stored p d hdoc
  obtain ⟨m, hm, _⟩ := hidentified.read _ hmem
  rw [getControllo_eq hr hdoc] at hm
  simp [hm]

/-- The code of an identified machine is alone with its one segment. -/
theorem Identified.single {scanned : Set String} {s : State} (hs : Inv s)
    (hidentified : Identified scanned s) : Single scanned s := by
  intro c hc
  obtain ⟨ms, hms, hlisted⟩ := hidentified.listed
  obtain ⟨ms', hms', _, hmem⟩ := exists_listed hs (hidentified.decode hs)
  rw [hms] at hms'
  cases hms'
  have hone := hlisted c hc
  obtain ⟨m, hm, hcod⟩ := List.mem_map.mp (List.count_pos_iff.mp (hone ▸ Nat.one_pos))
  obtain ⟨k, d, hk, hdoc, hm⟩ := (hmem m).mp hm
  obtain ⟨r, rfl, hr, _⟩ := hs.stored k d hdoc
  rw [← cod_of_record hm, hcod] at hr
  obtain ⟨seg, rfl⟩ := List.length_eq_one_iff.mp hk
  refine ⟨seg, hr, ?_⟩
  intro x hx hpath
  exact hidentified.distinct c x (Or.inr hc) hx _ hr hpath

/-- Where codes in play do not share a document, exactly those of machines are found. -/
theorem isControlloPresente_iff {scanned : Set String} {s : State} (hs : Inv s)
    (hdistinct : ∀ c x, InPlay scanned s c → InPlay scanned s x →
      ∀ p, docPath c = some p → docPath x = some p → x = c) {x : String}
    (hx : InPlay scanned s x) : isControlloPresente .success x s.backend = true ↔ x ∈ s.codes := by
  constructor
  · intro hpresent
    unfold isControlloPresente at hpresent
    split at hpresent
    · rename_i p hpath _
      obtain ⟨d, hdoc⟩ := Option.isSome_iff_exists.mp hpresent
      obtain ⟨r, _, hr, hmem, _⟩ := hs.stored p d hdoc
      rw [hdistinct _ x (Or.inr hmem) hx p hr hpath]
      exact hmem
    · cases hpresent
  · intro hmem
    obtain ⟨p, hpath, hdoc⟩ := hs.addressed x hmem
    simp [isControlloPresente, hpath, hdoc]

/-- **Identification by segments.** The codes identify the machines exactly if those that
are typed or scanned are apart, each machine's code is alone with its one segment, and all
machines decode. -/
theorem identified_iff {scanned : Set String} {s : State} (hs : Inv s) :
    Identified scanned s ↔ Apart scanned ∧ Single scanned s ∧ Decode s := by
  constructor
  · intro hidentified
    refine ⟨?_, hidentified.single hs, hidentified.decode hs⟩
    intro c hc x hx hcSome hxSome hbare
    obtain ⟨p, hcp⟩ := Option.isSome_iff_exists.mp hcSome
    obtain ⟨q, hxq⟩ := Option.isSome_iff_exists.mp hxSome
    have hqp : q = p := (docPath_eq_iff hxq hcp).mpr hbare
    rw [hqp] at hxq
    exact hidentified.distinct c x (Or.inl hc) (Or.inl hx) p hcp hxq
  · rintro ⟨hapart, hsingle, hdecode⟩
    have hdistinct : ∀ c x, InPlay scanned s c → InPlay scanned s x →
        ∀ p, docPath c = some p → docPath x = some p → x = c := by
      intro c x hc hx p hcp hxp
      exact distinct_of_single hapart hsingle hc hx hcp hxp
    have hread := fun c hc => exists_read hs hdecode (c := c) hc
      fun c' hc' => hdistinct c c' (Or.inr hc) (Or.inr hc')
    refine ⟨hdistinct, fun x hx => isControlloPresente_iff hs hdistinct hx, ?_, ?_⟩
    · intro c hc
      obtain ⟨p, d, m, hpath, hdoc, hm, hcod⟩ := hread c hc
      exact ⟨m, by rw [getControllo_eq hpath hdoc, hm], hcod⟩
    · obtain ⟨ms, hms, hnodup, hmem⟩ := exists_listed hs hdecode
      refine ⟨ms, hms, ?_⟩
      intro c hc
      obtain ⟨p, d, m, hpath, hdoc, hm, hcod⟩ := hread c hc
      obtain ⟨seg, hseg, _⟩ := hsingle c hc
      rw [hseg] at hpath
      cases hpath
      refine List.count_eq_one_of_mem ?_ (List.mem_map.mpr ⟨m, ?_, hcod⟩)
      · exact List.Nodup.of_map docPath (by rwa [List.map_map])
      · exact (hmem m).mpr ⟨_, d, rfl, hdoc, hm⟩

/-- A new code is alone with its one segment, and leaves the others alone, exactly if no
other code in play has its segment. -/
theorem single_cons_iff {scanned : Set String} {s t : State} {c : String}
    (hsingle : Single scanned s) (hcodes : t.codes = c :: s.codes) :
    Single scanned t ↔ ∃ seg, docPath c = some [seg] ∧
      ∀ x, InPlay scanned s x → docPath x = some [seg] → x = c := by
  have hinPlay : ∀ x, InPlay scanned t x ↔ x = c ∨ InPlay scanned s x := by
    intro x
    rw [InPlay, hcodes, List.mem_cons, InPlay]
    exact or_left_comm
  constructor
  · intro ht
    obtain ⟨seg, hseg, honly⟩ := ht c (by rw [hcodes]; exact List.mem_cons_self)
    exact ⟨seg, hseg, fun x hx => honly x ((hinPlay x).mpr (Or.inr hx))⟩
  · rintro ⟨seg, hseg, honly⟩ c' hc'
    rw [hcodes] at hc'
    rcases List.mem_cons.mp hc' with rfl | hold
    · refine ⟨seg, hseg, ?_⟩
      intro x hx hpath
      rcases (hinPlay x).mp hx with rfl | hx
      · rfl
      · exact honly x hx hpath
    · obtain ⟨seg', hseg', honly'⟩ := hsingle c' hold
      refine ⟨seg', hseg', ?_⟩
      intro x hx hpath
      rcases (hinPlay x).mp hx with rfl | hx
      · rw [hseg] at hpath
        cases hpath
        exact (honly c' (Or.inr hold) hseg').symm
      · exact honly' x hx hpath

/-! ## Runs -/

/-- The code of the record that a step stores has one segment, which no other code in
play has, and both dates of the record are storable. -/
def AddsSingle (scanned : Set String) (s : State) (a : Action) : Prop :=
  ∀ w ∈ written a,
    (∃ seg, Names w.2.cod seg ∧ ∀ x, InPlay scanned s x → Names x seg → x = w.2.cod) ∧
    w.2.dataUltimoControllo.Storable ∧ w.2.dataProssimoControllo.Storable

/-- A step keeps the identification exactly if it adds a single code. -/
theorem identified_step_iff {scanned : Set String} {s t : State} {a : Action} (hs : Inv s)
    (hidentified : Identified scanned s) (hstep : step s a = some t) :
    Identified scanned t ↔ AddsSingle scanned s a := by
  obtain ⟨hapart, hsingle, hdecode⟩ := (identified_iff hs).mp hidentified
  rw [identified_iff (hs.step hstep)]
  refine (and_iff_right hapart).trans ?_
  rcases step_eq_some hstep with ⟨hnone, hcontrolli, hcodes⟩ |
    ⟨p, c, hsome, hpath, hultimo, hprossimo, hcontrolli, hcodes⟩
  · refine iff_of_true ⟨?_, ?_⟩ (by simp [AddsSingle, hnone])
    · unfold Single InPlay at *
      rwa [hcodes]
    · unfold Decode at *
      rwa [hcontrolli]
  · have hdecodes : Decode t ↔
        c.dataUltimoControllo.Storable ∧ c.dataProssimoControllo.Storable := by
      rw [Decode, hcontrolli, setDoc, allDocs_insert_iff hdecode,
        fromSnapshot_record hultimo hprossimo]
    rw [hdecodes, single_cons_iff hsingle hcodes]
    simp [AddsSingle, hsome, docPath_eq_singleton]

/-- **When codes identify machines.** In every run of confirmed Adds from an empty store,
and for every set of texts typed or scanned, the codes identify the machines in every
state exactly when those that are typed or scanned are apart, and every Add that stores a
record does so under a code with one segment that no other code in play has, and with
storable dates. -/
theorem always_identified_iff (scanned : Set String) {hist : List (State × Action)} {t : State}
    (hrun : Run step State.start hist t) :
    Always (Identified scanned) hist t ↔ Apart scanned ∧ Steps (AddsSingle scanned) hist := by
  have hstart : Inv State.start :=
    ⟨fun p d hd => by simp [State.start, Backend.empty] at hd, by simp [State.start]⟩
  refine hrun.always_iff_and Inv hstart (fun _ _ _ => Inv.step) ?_ ?_
  · rw [identified_iff hstart]
    refine and_iff_left ⟨?_, allDocs_empty _⟩
    intro c hc
    simp [State.start] at hc
  · intro _ s a t hs hidentified hstep
    exact identified_step_iff hs hidentified hstep

/-- A machine is added under a code with both writes accepted. -/
def add (c : String) : Action :=
  ⟨c, Confirms.fill "15/01/2022" "15/01/2023", .success, .success⟩

/-- The code `M1` identifies its machine, also where `M2` is scanned. -/
theorem always_identified_iff_M1 : ∃ t, Run step State.start [(State.start, add "M1")] t ∧
    Always (Identified {"M1", "M2"}) [(State.start, add "M1")] t := by
  obtain ⟨t, ht⟩ := Option.isSome_iff_exists.mp
    (show (step State.start (add "M1")).isSome by decide +kernel)
  have hrun : Run step State.start [(State.start, add "M1")] t := Run.nil.snoc ht
  refine ⟨t, hrun, (always_identified_iff {"M1", "M2"} hrun).mpr ⟨?_, ?_⟩⟩
  · have hbare : bare "M1" ≠ bare "M2" := by decide
    rintro c (rfl | rfl) x (rfl | rfl) _ _ h
    · rfl
    · exact absurd h.symm hbare
    · exact absurd h hbare
    · rfl
  rw [steps_cons]
  refine ⟨?_, by simp [Steps]⟩
  intro w hw
  have hwritten : ∀ w ∈ written (add "M1"), w.2.cod = "M1" ∧
      w.2.dataUltimoControllo.Storable ∧ w.2.dataProssimoControllo.Storable := by
    decide +kernel
  obtain ⟨hcod, hstorable⟩ := hwritten w hw
  rw [hcod]
  refine ⟨⟨"M1", by decide, ?_⟩, hstorable⟩
  rintro x ((rfl | rfl) | hx) hnames
  · rfl
  · exact absurd hnames (by decide)
  · simp [State.start] at hx

/-- The machine added under `A/B/C` is found and read, but never listed, and a machine
added under `A/` takes the place of the one added under `A`. -/
theorem not_identified_slash :
    ((exec step [] State.start [add "A/B/C"]).map fun r =>
      (r.2.codes, isControlloPresente .success "A/B/C" r.2.backend, getAllControls r.2.backend)) =
        some (["A/B/C"], true, some []) ∧
    ((exec step [] State.start [add "A", add "A/"]).map fun r =>
      (r.2.codes, (getControllo "A" r.2.backend).map Controllo.cod)) =
        some (["A/", "A"], some "A/") := by
  decide +kernel

end Codes

end EthosApp
