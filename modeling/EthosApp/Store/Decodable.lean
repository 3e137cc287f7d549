import EthosApp.Store.Codec
import EthosApp.Store.Confirms

/-!
# Whether the lists can be loaded

The lists decode every document of a collection and fail as a whole if one document
fails. The ten characters kept of a date are decoded again unless its year lies between
-9999 and -1, so that the lists keep loading exactly as long as no such date is stored.
-/

namespace EthosApp

open Dart Firestore DocStore Runs Confirms

/-- A document that every reader of machines can decode, whatever hour it passes. -/
def Controllo.Decodes (d : Doc) : Prop := ∀ h : Hour, (fromSnapshot d h.text).isSome

/-- All documents of both collections decode. -/
def Backend.Decodes (b : Backend) : Prop :=
  AllDocs (fun _ d => Controllo.Decodes d) b.controlli ∧
    AllDocs (fun _ d => (RegistroControllo.fromSnapshot d).isSome) b.registroControlli

/-- No list fails because of a document. -/
structure Backend.ListsLoad (b : Backend) : Prop where
  /-- All machines can be listed. -/
  getAllControls : (getAllControls b).isSome
  /-- The agenda of any day can be listed, with any hour. -/
  getControlliPerData : ∀ (data : DateTime) (h : Hour), (getControlliPerData data h.text b).isSome
  /-- The checks of any range can be listed. -/
  getRevisioniPerData : ∀ (zone : Zone) (start finish : DateTime),
    (getRevisioniPerData zone start finish b).isSome

/-- The lists load where all documents decode. -/
theorem Backend.Decodes.listsLoad {b : Backend} (hdecodes : b.Decodes) : b.ListsLoad := by
  obtain ⟨hcontrolli, hregistro⟩ := hdecodes
  have hmachine : ∀ d ∈ docs b.controlli, Controllo.Decodes d := by
    intro d hd
    obtain ⟨p, _, hlookup⟩ := mem_docs.mp hd
    exact hcontrolli p d hlookup
  constructor
  · rw [EthosApp.getAllControls, ← zero_text]
    exact mapM_isSome fun d hd => hmachine d hd Hour.zero
  · intro data h
    exact mapM_isSome fun d hd => hmachine d (List.mem_of_mem_filter hd) h
  · intro zone start finish
    have hvalues : ((docs b.registroControlli).mapM RegistroControllo.fromSnapshot).isSome := by
      apply mapM_isSome
      intro d hd
      obtain ⟨p, _, hlookup⟩ := mem_docs.mp hd
      exact hregistro p d hlookup
    obtain ⟨values, hvalues⟩ := Option.isSome_iff_exists.mp hvalues
    simp [EthosApp.getRevisioniPerData, hvalues]

/-! ## One write -/

/-- A document over which a record was written decodes exactly when both dates are
storable, provided that its sheet can be read. -/
theorem Controllo.decodes_overwrite {d : Doc} {c : Controllo}
    (hscheda : (schedaOf d c.cod).isSome)
    (hultimo : c.dataUltimoControllo.date.year.natAbs < 10 ^ 6)
    (hprossimo : c.dataProssimoControllo.date.year.natAbs < 10 ^ 6) :
    Decodes (overwrite d c.toJson) ↔
      c.dataUltimoControllo.Storable ∧ c.dataProssimoControllo.Storable := by
  have hone : ∀ h : Hour, (fromSnapshot (overwrite d c.toJson) h.text).isSome ↔
      c.dataUltimoControllo.Storable ∧ c.dataProssimoControllo.Storable := by
    intro h
    rw [← DateTime.parse_isoDay_hour h hultimo, ← DateTime.parse_isoDay_hour h hprossimo,
      fromSnapshot_overwrite_eq]
    obtain ⟨scheda, hscheda⟩ := Option.isSome_iff_exists.mp hscheda
    cases DateTime.parse (c.dataUltimoControllo.isoDay ++ " " ++ h.text) <;>
      cases DateTime.parse (c.dataProssimoControllo.isoDay ++ " " ++ h.text) <;> simp [hscheda]
  constructor
  · intro hdecodes
    exact (hone Hour.zero).mp (hdecodes Hour.zero)
  · intro hstorable h
    exact (hone h).mpr hstorable

/-- A registered entry decodes exactly when its date is storable. -/
theorem RegistroControllo.decodes_ofMap {r : RegistroControllo}
    (hbig : r.dataControllo.date.year.natAbs < 10 ^ 6) :
    (fromSnapshot (ofMap r.toJson)).isSome ↔ r.dataControllo.Storable := by
  rw [← DateTime.parse_isoDay hbig, fromSnapshot_ofMap, Option.isSome_map]

/-! ## Runs -/

namespace Confirms

/-- Every date that a step stores is storable: the dates of the machine record, if one
is stored, and the date of the entry, if one is registered. -/
def StoresStorable (zone : Zone) (s : State) (a : Action) : Prop :=
  (∀ w ∈ written s a, w.2.dataUltimoControllo.Storable ∧ w.2.dataProssimoControllo.Storable) ∧
    ∀ w ∈ registered zone s a, w.2.dataControllo.Storable

instance (zone : Zone) (s : State) (a : Action) : Decidable (StoresStorable zone s a) :=
  inferInstanceAs (Decidable (_ ∧ _))

/-- A step from decodable machines leaves them decodable exactly when the record that
it stores has storable dates. -/
theorem decodes_controlli_iff {zone : Zone} {s t : State} {a : Action}
    (hbefore : AllDocs (fun _ d => Controllo.Decodes d) s.backend.controlli)
    (hstep : step zone s a = some t) :
    AllDocs (fun _ d => Controllo.Decodes d) t.backend.controlli ↔
      ∀ w ∈ written s a, w.2.dataUltimoControllo.Storable ∧ w.2.dataProssimoControllo.Storable := by
  refine allDocs_step_iff (Q := fun c => c.dataUltimoControllo.Storable ∧
    c.dataProssimoControllo.Storable) hbefore hstep ?_
  intro p c d hsome hold
  obtain ⟨_, u, v, _, hu, hv⟩ := written_spec hsome
  have hscheda : (Controllo.schedaOf d c.cod).isSome := by
    rcases hold with rfl | hold
    · rfl
    · obtain ⟨c', hc'⟩ := Option.isSome_iff_exists.mp (hbefore p d hold Hour.zero)
      exact Controllo.schedaOf_isSome hc' c.cod
  exact Controllo.decodes_overwrite hscheda (DateTime.natAbs_year_of_parse hu)
    (DateTime.natAbs_year_of_parse hv)

/-- A step from a decodable register leaves it decodable exactly when the entry that it
registers has a storable date. -/
theorem decodes_registro_iff {zone : Zone} {s t : State} {a : Action}
    (hbefore : AllDocs (fun _ d => (RegistroControllo.fromSnapshot d).isSome)
      s.backend.registroControlli) (hstep : step zone s a = some t) :
    AllDocs (fun _ d => (RegistroControllo.fromSnapshot d).isSome) t.backend.registroControlli ↔
      ∀ w ∈ registered zone s a, w.2.dataControllo.Storable := by
  rw [step_registro hstep]
  cases hsome : registered zone s a with
  | none => exact iff_of_true hbefore (by simp)
  | some w =>
    obtain ⟨p, r⟩ := w
    obtain ⟨_, u, hu, _⟩ := registered_spec hsome
    dsimp only
    rw [setDoc, allDocs_insert_iff hbefore,
      RegistroControllo.decodes_ofMap (DateTime.natAbs_year_of_parse hu)]
    simp

/-- **When the lists keep loading.** In every run from empty collections, all stored
documents decode in every state exactly when every step stores storable dates only, and
then no list ever fails. -/
theorem always_decodes_iff {zone : Zone} {hist : List (State × Action)} {t : State}
    (hrun : Run (step zone) State.start hist t) :
    (Always (fun s => s.backend.Decodes) hist t ↔ Steps (StoresStorable zone) hist) ∧
      (Steps (StoresStorable zone) hist → Always (fun s => s.backend.ListsLoad) hist t) := by
  have hiff : Always (fun s => s.backend.Decodes) hist t ↔ Steps (StoresStorable zone) hist := by
    refine hrun.always_iff (fun _ => True) trivial (fun _ _ _ _ _ => trivial) ?_ ?_
    · exact ⟨allDocs_empty _, allDocs_empty _⟩
    · intro s a t _ hbefore hstep
      exact and_congr (decodes_controlli_iff hbefore.1 hstep)
        (decodes_registro_iff hbefore.2 hstep)
  refine ⟨hiff, ?_⟩
  intro hgood
  obtain ⟨hlast, hvisited⟩ := hiff.mpr hgood
  exact ⟨hlast.listsLoad, fun e he => (hvisited e he).listsLoad⟩

/-- The actions that fill the form of a new machine. -/
def fill (ultimo prossimo : String) : List Add.Action :=
  [.descrizione "Pulizia", .dataUltimo (.type ultimo), .dataProssimo (.type prossimo),
    .file ⟨"/foto/scheda.pdf"⟩]

/-- A machine is registered, read by the home page, and checked. -/
def addReadCheck : List Action :=
  [.add "M1" (fill "15/01/2022" "15/01/2023") .success .success,
    .read ["M1"] Hour.ten,
    .check 0 [.dataControllo (.type "16/01/2023"), .dataProssimo (.type "16/01/2024")]
      .success .success]

/-- The run that takes these actions. -/
def runM1 : Option (List (State × Action) × State) :=
  exec (step (Zone.fixed 0)) [] State.start addReadCheck

/-- The actions are possible one after the other. -/
theorem runM1_isSome : runM1.isSome := by decide +kernel

/-- The lists load along a run with ordinary dates. -/
theorem always_decodes_iff_M1 :
    Always (fun s => s.backend.ListsLoad) (runM1.get runM1_isSome).1
      (runM1.get runM1_isSome).2 :=
  (always_decodes_iff (run_get runM1_isSome)).2 (by unfold Steps; decide +kernel)

/-- The form accepts `00/00/0000`, which denotes 30 November of the year -1, and after
that the machines can no longer be listed. -/
theorem lists_fail_zeros :
    ((exec (step (Zone.fixed 0)) [] State.start
        [.add "M1" (fill "00/00/0000" "15/01/2023") .success .success]).map
      fun r => (getAllControls r.2.backend).isSome) = some false := by
  decide +kernel

end Confirms

end EthosApp
