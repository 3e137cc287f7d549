import EthosApp.Store.Register

/-!
# The key of the register

An entry is stored under its code followed by the UTC text of its date, without a
separator. The text has a fixed width and determines the day, so that the identifier
determines the code and the day, whatever the code is. It is then used as a path, in which
a `/` at the front is dropped: a code and the same code behind a `/` share a document on
one day.
-/

namespace EthosApp

open Dart Gregorian Firestore DocStore

namespace RegistroControllo

/-- A code that is another one behind a `/`. It is accepted as a path in front of a date:
it contains no `//` and, besides the first one, an even number of `/`. -/
def Behind (c c' : String) : Prop :=
  c' = "/" ++ c ∧ ¬ ['/', '/'] <:+: c'.toList ∧ c'.toList.count '/' % 2 = 1

instance (c c' : String) : Decidable (Behind c c') := inferInstanceAs (Decidable (_ ∧ _ ∧ _))

/-- Two entries of one day, where the code of one is that of the other behind a `/`. -/
def Collide (r r' : RegistroControllo) : Prop :=
  r.dataControllo.date = r'.dataControllo.date ∧
    (Behind r.codice r'.codice ∨ Behind r'.codice r.codice)

instance (r r' : RegistroControllo) : Decidable (Collide r r') :=
  inferInstanceAs (Decidable (_ ∧ _))

/-! ## Codes in front of a date -/

/-- A code behind a `/` has no other `/` in front. -/
theorem Behind.dropWhile {c c' : String} (h : Behind c c') :
    c.toList.dropWhile (· = '/') = c.toList ∧ c'.toList.dropWhile (· = '/') = c.toList := by
  obtain ⟨rfl, hdoubled, _⟩ := h
  have hchars : ("/" ++ c).toList = '/' :: c.toList := by simp
  have hdrop : c.toList.dropWhile (· = '/') = c.toList := by
    rw [List.dropWhile_eq_self_iff]
    intro hpos hhead
    obtain ⟨x, cs, hcs⟩ := List.exists_cons_of_length_pos hpos
    have hx : x = '/' := by simpa [hcs] using hhead
    apply hdoubled
    rw [hchars, hcs, hx]
    exact (List.prefix_append ['/', '/'] cs).isInfix
  refine ⟨hdrop, ?_⟩
  rw [hchars, List.dropWhile_cons_of_pos (by simp), hdrop]

/-- In front of a date, a code and the same code behind a `/` address one document. -/
theorem Behind.exists_docPath {c c' t : String} (h : Behind c c') (hne : t ≠ "")
    (ht : '/' ∉ t.toList) : ∃ p, docPath (c ++ t) = some p ∧ docPath (c' ++ t) = some p := by
  obtain ⟨hdrop, hdrop'⟩ := h.dropWhile
  obtain ⟨rfl, hdoubled, hodd⟩ := h
  have hchars : ("/" ++ c).toList = '/' :: c.toList := by simp
  have hcount : c.toList.count '/' % 2 = 0 := by
    rw [hchars, List.count_cons_self] at hodd
    omega
  have hsub : ¬ ['/', '/'] <:+: c.toList := by
    intro hinfix
    apply hdoubled
    rw [hchars]
    exact hinfix.trans (List.suffix_cons _ _).isInfix
  have hp := (docPath_append_isSome (c := c) hne ht).mpr ⟨hsub, by rw [hdrop]; exact hcount⟩
  have hq := (docPath_append_isSome (c := "/" ++ c) hne ht).mpr
    ⟨hdoubled, by rw [hdrop']; exact hcount⟩
  obtain ⟨p, hp⟩ := Option.isSome_iff_exists.mp hp
  obtain ⟨q, hq⟩ := Option.isSome_iff_exists.mp hq
  have hbare : bare (c ++ t) = bare ("/" ++ c ++ t) := by
    rw [bare_append hne ht, bare_append hne ht, hdrop, hdrop']
  rw [← (docPath_eq_iff hp hq).mpr hbare] at hq
  exact ⟨p, hp, hq⟩

/-- A code without a doubled `/` has at most one `/` in front. -/
theorem eq_or_cons_dropWhile {cs : List Char} (hdoubled : ¬ ['/', '/'] <:+: cs) :
    cs = cs.dropWhile (· = '/') ∨ cs = '/' :: cs.dropWhile (· = '/') := by
  rcases cs with _ | ⟨c, cs⟩
  · exact Or.inl rfl
  · by_cases hc : c = '/'
    · subst hc
      rw [List.dropWhile_cons_of_pos (by simp)]
      rcases cs with _ | ⟨d, ds⟩
      · exact Or.inr rfl
      · have hd : d ≠ '/' := by
          rintro rfl
          exact hdoubled (List.prefix_append ['/', '/'] ds).isInfix
        rw [List.dropWhile_cons_of_neg (by simpa using hd)]
        exact Or.inr rfl
    · rw [List.dropWhile_cons_of_neg (by simpa using hc)]
      exact Or.inl rfl

/-- A code that has one `/` in front of the characters of another one is that code behind
a `/`. -/
theorem behind_of_dropWhile {c c' : String} (hdoubled : ¬ ['/', '/'] <:+: c'.toList)
    (heven : (c'.toList.dropWhile (· = '/')).count '/' % 2 = 0)
    (hc : c.toList = c'.toList.dropWhile (· = '/'))
    (hslash : c'.toList = '/' :: c'.toList.dropWhile (· = '/')) : Behind c c' := by
  refine ⟨?_, hdoubled, ?_⟩
  · rw [← String.toList_inj, hslash, ← hc]
    simp
  · rw [hslash, List.count_cons_self]
    omega

/-- Two codes that address one document in front of a date are equal, or one is the other
behind a `/`. -/
theorem behind_of_docPath {c c' t t' : String} {p : Path} (hne : t ≠ "") (ht : '/' ∉ t.toList)
    (hne' : t' ≠ "") (ht' : '/' ∉ t'.toList) (hlength : t.toList.length = t'.toList.length)
    (hc : docPath (c ++ t) = some p) (hc' : docPath (c' ++ t') = some p) :
    t = t' ∧ (c = c' ∨ Behind c c' ∨ Behind c' c) := by
  have hbare := (docPath_eq_iff hc hc').mp rfl
  rw [bare_append hne ht, bare_append hne' ht'] at hbare
  obtain ⟨hdrop, htext⟩ := List.append_inj' hbare hlength
  refine ⟨String.toList_inj.mp htext, ?_⟩
  obtain ⟨hdoubled, heven⟩ := (docPath_append_isSome hne ht).mp (by rw [hc]; rfl)
  obtain ⟨hdoubled', heven'⟩ := (docPath_append_isSome hne' ht').mp (by rw [hc']; rfl)
  -- one code is the other behind a `/` where only one of them has a `/` in front
  rcases eq_or_cons_dropWhile hdoubled with hplain | hslash
  · rcases eq_or_cons_dropWhile hdoubled' with hplain' | hslash'
    · exact Or.inl (String.toList_inj.mp (hplain.trans (hdrop.trans hplain'.symm)))
    · exact Or.inr (Or.inl (behind_of_dropWhile hdoubled' heven' (hplain.trans hdrop) hslash'))
  · rcases eq_or_cons_dropWhile hdoubled' with hplain' | hslash'
    · have hchars := hplain'.trans hdrop.symm
      exact Or.inr (Or.inr (behind_of_dropWhile hdoubled heven hchars hslash))
    · rw [hdrop] at hslash
      exact Or.inl (String.toList_inj.mp (hslash.trans hslash'.symm))

/-! ## What a registration does to another entry -/

/-- Registering the second entry changes what is stored under the first, in some state. -/
def Overwrites (zone : Zone) (r r' : RegistroControllo) : Prop :=
  ∃ (o : Outcome) (b : Backend) (p : Path), docPath (registroId zone r) = some p ∧
    (registroControllo zone o r' b).2.registroControlli.lookup p ≠ b.registroControlli.lookup p

/-- A registration overwrites the entries that have its document. -/
theorem overwrites_iff {zone : Zone} {r r' : RegistroControllo} : Overwrites zone r r' ↔
    ∃ p, docPath (registroId zone r) = some p ∧ docPath (registroId zone r') = some p := by
  constructor
  · rintro ⟨o, b, p, hp, hchanged⟩
    refine ⟨p, hp, ?_⟩
    rw [registroControllo_snd] at hchanged
    cases hwritten : writtenPath o (registroId zone r') with
    | none =>
      rw [hwritten] at hchanged
      exact absurd rfl hchanged
    | some q =>
      obtain ⟨_, hq⟩ := writtenPath_eq_some.mp hwritten
      rw [hwritten] at hchanged
      by_cases hpq : p = q
      · rw [hpq]
        exact hq
      · exact absurd (lookup_setDoc_ne _ _ hpq) hchanged
  · rintro ⟨p, hp, hp'⟩
    have hwritten := writtenPath_eq_some.mpr ⟨rfl, hp'⟩
    refine ⟨.success, Backend.empty, p, hp, ?_⟩
    rw [registroControllo_snd, hwritten]
    dsimp only
    rw [lookup_setDoc, Backend.empty, AList.lookup_empty]
    simp

/-- Repeating an executed registration changes nothing. -/
theorem registroControllo_again (zone : Zone) (o : Outcome) (r : RegistroControllo)
    (b : Backend) :
    (registroControllo zone o r (registroControllo zone .success r b).2).2 =
      (registroControllo zone .success r b).2 := by
  rw [registroControllo_snd zone o, registroControllo_snd zone .success]
  cases hpath : docPath (registroId zone r) with
  | none => simp [writtenPath, hpath]
  | some p => cases o <;> simp [writtenPath, hpath, setDoc, AList.insert_insert]

/-- Entries of different machines or days share a document exactly if they collide. -/
theorem Dated.exists_docPath_iff {zone : Zone} {r r' : RegistroControllo} (hr : r.Dated)
    (hr' : r'.Dated) (hdifferent : ¬ r.SameCheck r') :
    (∃ p, docPath (registroId zone r) = some p ∧ docPath (registroId zone r') = some p) ↔
      Collide r r' := by
  have hutc := hr.wholeUtc zone
  have hutc' := hr'.wholeUtc zone
  constructor
  · rintro ⟨p, hp, hp'⟩
    obtain ⟨htext, hcodes⟩ := behind_of_docPath hutc.text_ne_empty (slash_notMem_wholeUtc hutc)
      hutc'.text_ne_empty (slash_notMem_wholeUtc hutc') (by rw [hutc.length, hutc'.length]) hp hp'
    -- the texts are equal, as if both entries were of the first machine
    have hsame : Dated { r' with codice := r.codice } := ⟨hr'.midnight, hr'.year⟩
    have hid : registroId zone r = registroId zone { r' with codice := r.codice } := by
      rw [registroId, registroId, htext]
    have hday := ((hr.registroId_inj hsame zone).mp hid).2
    refine ⟨hday, hcodes.resolve_left ?_⟩
    intro hcodice
    exact hdifferent ⟨hcodice, hday⟩
  · rintro ⟨hday, hbehind⟩
    have htext : r.dataControllo = r'.dataControllo := by
      rw [hr.midnight, hr'.midnight, hday]
    rw [registroId, registroId, htext]
    rcases hbehind with hbehind | hbehind
    · exact hbehind.exists_docPath hutc'.text_ne_empty (slash_notMem_wholeUtc hutc')
    · obtain ⟨p, hp, hp'⟩ :=
        hbehind.exists_docPath hutc'.text_ne_empty (slash_notMem_wholeUtc hutc')
      exact ⟨p, hp', hp⟩

/-- Entries of different machines or days are overwritten exactly if they collide. -/
theorem Dated.overwrites_iff_collide {zone : Zone} {r r' : RegistroControllo} (hr : r.Dated)
    (hr' : r'.Dated) (hdifferent : ¬ r.SameCheck r') : Overwrites zone r r' ↔ Collide r r' :=
  overwrites_iff.trans (hr.exists_docPath_iff hr' hdifferent)

/-! ## Sequences of registrations -/

/-- Registrations one after another, with the answers of the server. -/
def registerAll (zone : Zone) (rs : List (Outcome × RegistroControllo)) (b : Backend) : Backend :=
  rs.foldl (fun b e => (registroControllo zone e.1 e.2 b).2) b

/-- Registrations that do not overwrite an entry leave its document alone. -/
theorem lookup_registerAll {zone : Zone} {r : RegistroControllo} {p : Path}
    (hp : docPath (registroId zone r) = some p) {rs : List (Outcome × RegistroControllo)}
    (hkept : ∀ e ∈ rs, ¬ Overwrites zone r e.2) (b : Backend) :
    (registerAll zone rs b).registroControlli.lookup p = b.registroControlli.lookup p := by
  induction rs generalizing b with
  | nil => rfl
  | cons e rs ih =>
    have hfirst : (registroControllo zone e.1 e.2 b).2.registroControlli.lookup p =
        b.registroControlli.lookup p := by
      by_contra hchanged
      exact hkept e List.mem_cons_self ⟨e.1, b, p, hp, hchanged⟩
    rw [← hfirst]
    exact ih (fun e' he' => hkept e' (List.mem_cons_of_mem _ he')) _

/-- An entry that has been registered is kept through any registrations of other machines or
days that do not collide with it. -/
theorem Dated.lookup_kept {zone : Zone} {r : RegistroControllo} {p : Path} (hr : r.Dated)
    (hp : docPath (registroId zone r) = some p) {rs : List (Outcome × RegistroControllo)}
    (hothers : ∀ e ∈ rs, e.2.Dated ∧ ¬ r.SameCheck e.2 ∧ ¬ Collide r e.2) (b : Backend) :
    (registerAll zone rs (registroControllo zone .success r b).2).registroControlli.lookup p =
      some (ofMap r.toJson) := by
  rw [lookup_registerAll hp]
  · rw [registroControllo_snd, writtenPath_eq_some.mpr ⟨rfl, hp⟩]
    exact lookup_setDoc p r.toJson b.registroControlli
  · intro e he
    obtain ⟨hdated, hdifferent, hapart⟩ := hothers e he
    exact mt (hr.overwrites_iff_collide hdated hdifferent).mp hapart

/-! ## The key -/

/-- What the key of the register is for, for two entries. -/
structure Keyed (zone : Zone) (r r' : RegistroControllo) : Prop where
  /-- The identifiers are equal exactly for one machine and one day. -/
  ids : registroId zone r = registroId zone r' ↔ r.SameCheck r'
  /-- Entries of different machines or days do not overwrite each other. -/
  kept : ¬ r.SameCheck r' → ¬ Overwrites zone r r' ∧ ¬ Overwrites zone r' r
  /-- Repeating a registration changes nothing. -/
  again : ∀ (o : Outcome) (b : Backend),
    (registroControllo zone o r (registroControllo zone .success r b).2).2 =
      (registroControllo zone .success r b).2

/-- Entries that collide are of different machines. -/
theorem Collide.different {r r' : RegistroControllo} (h : Collide r r') : ¬ r.SameCheck r' := by
  rintro ⟨hcodice, _⟩
  have hlength := congrArg (fun c => c.toList.length) hcodice
  rcases h.2 with ⟨hslash, _⟩ | ⟨hslash, _⟩
  · simp [hslash] at hlength
  · simp [hslash] at hlength

/-- Whether two entries collide does not depend on their order. -/
theorem Collide.symm {r r' : RegistroControllo} (h : Collide r r') : Collide r' r :=
  ⟨h.1.symm, h.2.symm⟩

/-- **The key of the register.** For two entries of any codes, dated at local midnights of
the years 1 to 9999, the identifiers are equal exactly for one machine and one day. The
entries are also kept apart in the register exactly if they do not collide: different
codes of one day share a document if one is the other behind a `/`. A registered entry stays
through any registrations of other machines or days that do not collide with it. -/
theorem keyed_iff {zone : Zone} {r r' : RegistroControllo} (hr : r.Dated) (hr' : r'.Dated) :
    (registroId zone r = registroId zone r' ↔ r.SameCheck r') ∧
      (Keyed zone r r' ↔ ¬ Collide r r') ∧
      ∀ p, docPath (registroId zone r) = some p → ∀ rs : List (Outcome × RegistroControllo),
        (∀ e ∈ rs, e.2.Dated ∧ ¬ r.SameCheck e.2 ∧ ¬ Collide r e.2) → ∀ b,
          (registerAll zone rs (registroControllo zone .success r b).2).registroControlli.lookup
            p = some (ofMap r.toJson) := by
  have hids := hr.registroId_inj hr' zone
  refine ⟨hids, ⟨?_, ?_⟩, fun p hp rs hothers b => hr.lookup_kept hp hothers b⟩
  · intro hkeyed hcollide
    have hdifferent := hcollide.different
    exact (hkeyed.kept hdifferent).1 ((hr.overwrites_iff_collide hr' hdifferent).mpr hcollide)
  · intro hapart
    refine ⟨hids, ?_, fun o b => registroControllo_again zone o r b⟩
    intro hdifferent
    have hdifferent' : ¬ r'.SameCheck r := fun h => hdifferent ⟨h.1.symm, h.2.symm⟩
    constructor
    · exact mt (hr.overwrites_iff_collide hr' hdifferent).mp hapart
    · exact mt (hr'.overwrites_iff_collide hr hdifferent').mp fun h => hapart h.symm

/-- The zone of Italy in winter. -/
def inverno : Zone := Zone.fixed 3600 Zone.hour_lt_day

/-- A check of a machine on 16 January 2023. -/
def checked (codice : String) : RegistroControllo where
  codice := codice
  tipo := "Forni"
  dataControllo := DateTime.midnight (.normalize 2023 1 16)
  segnalazioni := ""
  esito := false

/-- The check is dated at a local midnight. -/
theorem checked_dated (codice : String) : (checked codice).Dated := by
  have hyear : 1 ≤ (CivilDate.normalize 2023 1 16).year ∧
      (CivilDate.normalize 2023 1 16).year ≤ 9999 := by decide +kernel
  exact ⟨rfl, hyear⟩

/-- A code that ends in the text of a date is kept apart from the code it begins with, and a
check of the second leaves the first in the register. -/
theorem keyed_iff_date :
    Keyed inverno (checked "M1") (checked "M12023-01-15T23:00:00.000Z") ∧
      (registerAll inverno [(.success, checked "M12023-01-15T23:00:00.000Z")]
        (registroControllo inverno .success (checked "M1")
          Backend.empty).2).registroControlli.lookup ["M12023-01-15T23:00:00.000Z"] =
        some (ofMap (checked "M1").toJson) := by
  obtain ⟨_, hkeyed, hkept⟩ :=
    @keyed_iff inverno _ _ (checked_dated "M1") (checked_dated "M12023-01-15T23:00:00.000Z")
  have hapart : ¬ Collide (checked "M1") (checked "M12023-01-15T23:00:00.000Z") := by
    decide +kernel
  refine ⟨hkeyed.mpr hapart, hkept _ (by decide +kernel) _ ?_ _⟩
  intro e he
  rw [List.mem_singleton] at he
  subst he
  exact ⟨checked_dated _, by decide, hapart⟩

/-- The checks of `M1` and `/M1` on one day have different identifiers and one document,
in which the second check replaces the first. -/
theorem not_keyed_slash :
    registroId inverno (checked "M1") ≠ registroId inverno (checked "/M1") ∧
      (registerAll inverno [(.success, checked "M1"), (.success, checked "/M1")]
        Backend.empty).registroControlli.lookup ["M12023-01-15T23:00:00.000Z"] =
          some (ofMap (checked "/M1").toJson) ∧
      ¬ Keyed inverno (checked "M1") (checked "/M1") := by
  have hfirst : docPath (registroId inverno (checked "M1")) =
      some ["M12023-01-15T23:00:00.000Z"] := by decide +kernel
  have hsecond : docPath (registroId inverno (checked "/M1")) =
      some ["M12023-01-15T23:00:00.000Z"] := by decide +kernel
  refine ⟨by decide +kernel, ?_, ?_⟩
  · simp only [registerAll, List.foldl_cons, List.foldl_nil]
    rw [registroControllo_snd, writtenPath_eq_some.mpr ⟨rfl, hsecond⟩]
    exact lookup_setDoc _ _ _
  · intro hkeyed
    exact (hkeyed.kept (by decide)).1 (overwrites_iff.mpr ⟨_, hfirst, hsecond⟩)

end RegistroControllo

end EthosApp
