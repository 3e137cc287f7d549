import Mathlib.Data.List.AList

/-!
# Collections of documents

A document maps field names to values, and a collection maps identifiers to documents.
`setDoc` replaces a document and `updateDoc` overwrites some fields of a document that
exists. The rules state what each operation does to a lookup and which properties of
all stored documents it keeps.
-/

namespace DocStore

variable {K F V : Type*} [DecidableEq K] [DecidableEq F]

/-- A document: the values of its fields. -/
abbrev Doc (F V : Type*) := F → Option V

/-- The document with exactly the entries of a map literal. -/
def ofMap (m : List (F × V)) : Doc F V := fun k => m.lookup k

/-- The document after the entries of a map literal have been written over it. -/
def overwrite (d : Doc F V) (m : List (F × V)) : Doc F V := fun k => (m.lookup k).or (d k)

/-- A collection of documents by identifier. -/
abbrev Collection (K F V : Type*) := AList (fun _ : K => Doc F V)

/-- Create or replace a document. -/
def setDoc (k : K) (m : List (F × V)) (c : Collection K F V) : Collection K F V :=
  c.insert k (ofMap m)

/-- Overwrite fields of a document. A missing document is left missing. -/
def updateDoc (k : K) (m : List (F × V)) (c : Collection K F V) : Collection K F V :=
  match c.lookup k with
  | none => c
  | some d => c.insert k (overwrite d m)

/-- A property of every document of a collection and its identifier. -/
def AllDocs (P : K → Doc F V → Prop) (c : Collection K F V) : Prop :=
  ∀ k d, c.lookup k = some d → P k d

/-- A field of an overwritten document has the written value, if one was written. -/
theorem overwrite_of_lookup {d : Doc F V} {m : List (F × V)} {k : F} {v : V}
    (h : m.lookup k = some v) : overwrite d m k = some v := by
  simp [overwrite, h]

/-- A field that was not written keeps its value. -/
theorem overwrite_of_lookup_none {d : Doc F V} {m : List (F × V)} {k : F}
    (h : m.lookup k = none) : overwrite d m k = d k := by
  simp [overwrite, h]

omit [DecidableEq K] in
/-- A document created from a map literal is the literal written over nothing. -/
theorem ofMap_eq_overwrite (m : List (F × V)) : ofMap m = overwrite (fun _ => none) m := by
  funext k
  simp [ofMap, overwrite]

/-- The document just set is read back. -/
@[simp] theorem lookup_setDoc (k : K) (m : List (F × V)) (c : Collection K F V) :
    (setDoc k m c).lookup k = some (ofMap m) := AList.lookup_insert c

/-- Setting a document leaves the others alone. -/
theorem lookup_setDoc_ne {k k' : K} (m : List (F × V)) (c : Collection K F V) (h : k' ≠ k) :
    (setDoc k m c).lookup k' = c.lookup k' := AList.lookup_insert_ne h

/-- An updated document is read back with the written fields. -/
theorem lookup_updateDoc {k : K} {m : List (F × V)} {c : Collection K F V} {d : Doc F V}
    (h : c.lookup k = some d) : (updateDoc k m c).lookup k = some (overwrite d m) := by
  simp [updateDoc, h]

/-- Updating a document stores it with the written fields. -/
theorem updateDoc_of_lookup {k : K} {m : List (F × V)} {c : Collection K F V} {d : Doc F V}
    (h : c.lookup k = some d) : updateDoc k m c = c.insert k (overwrite d m) := by
  simp [updateDoc, h]

/-- Updating a missing document does nothing. -/
theorem updateDoc_of_none {k : K} {m : List (F × V)} {c : Collection K F V}
    (h : c.lookup k = none) : updateDoc k m c = c := by
  simp [updateDoc, h]

/-- Updating a document leaves the others alone. -/
theorem lookup_updateDoc_ne {k k' : K} (m : List (F × V)) (c : Collection K F V) (h : k' ≠ k) :
    (updateDoc k m c).lookup k' = c.lookup k' := by
  unfold updateDoc
  split
  · rfl
  · exact AList.lookup_insert_ne h

/-- Updating never creates a document and never removes one. -/
theorem lookup_updateDoc_eq_none {k k' : K} {m : List (F × V)} {c : Collection K F V} :
    (updateDoc k m c).lookup k' = none ↔ c.lookup k' = none := by
  by_cases h : k' = k
  · subst h
    cases hd : c.lookup k' with
    | none => simp [updateDoc, hd]
    | some d => simp [lookup_updateDoc hd]
  · rw [lookup_updateDoc_ne m c h]

omit [DecidableEq F] in
/-- After a document is stored, all documents have a property that they had before
exactly when the new one has it. -/
theorem allDocs_insert_iff {P : K → Doc F V → Prop} {c : Collection K F V} {k : K} {d : Doc F V}
    (hall : AllDocs P c) : AllDocs P (c.insert k d) ↔ P k d := by
  constructor
  · intro hafter
    exact hafter k d (AList.lookup_insert c)
  · intro hnew k' d' hd
    by_cases h : k' = k
    · subst h
      rw [AList.lookup_insert] at hd
      cases hd
      exact hnew
    · rw [AList.lookup_insert_ne h] at hd
      exact hall k' d' hd

omit [DecidableEq F] in
/-- Erasing a document keeps a property of all documents. -/
theorem AllDocs.erase {P : K → Doc F V → Prop} {c : Collection K F V} (k : K)
    (hall : AllDocs P c) : AllDocs P (c.erase k) := by
  intro k' d hd
  by_cases h : k' = k
  · subst h
    rw [AList.lookup_erase] at hd
    cases hd
  · rw [AList.lookup_erase_ne h] at hd
    exact hall k' d hd

omit [DecidableEq F] in
/-- No document of the empty collection lacks a property. -/
theorem allDocs_empty (P : K → Doc F V → Prop) : AllDocs P (∅ : Collection K F V) := by
  intro k d hd
  rw [AList.lookup_empty] at hd
  cases hd

/-- The collection after a log of sets, newest first. -/
def setAll {α : Type*} (key : α → K) (fields : α → List (F × V)) (log : List α) :
    Collection K F V :=
  log.foldr (fun r c => setDoc (key r) (fields r) c) ∅

/-- A log of sets leaves the newest set of every identifier. -/
theorem lookup_setAll {α : Type*} (key : α → K) (fields : α → List (F × V)) (log : List α) (k : K) :
    (setAll key fields log).lookup k =
      (log.find? fun r => key r = k).map fun r => ofMap (fields r) := by
  induction log with
  | nil => exact AList.lookup_empty k
  | cons r log ih =>
    rw [setAll, List.foldr_cons]
    by_cases h : key r = k
    · subst h
      rw [lookup_setDoc]
      simp
    · rw [lookup_setDoc_ne _ _ (Ne.symm h), List.find?_cons_of_neg (by simpa using h)]
      exact ih

/-! ## Writes that are tried again -/

/-- Setting a document twice is setting it once. -/
theorem setDoc_setDoc (k : K) (m : List (F × V)) (c : Collection K F V) :
    setDoc k m (setDoc k m c) = setDoc k m c := AList.insert_insert c

/-- Updating a document twice is updating it once. -/
theorem updateDoc_updateDoc (k : K) (m : List (F × V)) (c : Collection K F V) :
    updateDoc k m (updateDoc k m c) = updateDoc k m c := by
  cases hd : c.lookup k with
  | none => rw [updateDoc_of_none hd, updateDoc_of_none hd]
  | some d =>
    have htwice : overwrite (overwrite d m) m = overwrite d m := by
      funext f
      cases hf : m.lookup f <;> simp [overwrite, hf]
    rw [updateDoc_of_lookup (lookup_updateDoc hd), htwice, updateDoc_of_lookup hd]
    exact AList.insert_insert c

/-- A part of the state to which every attempt that succeeds does the same idempotent thing is
after several attempts what it is after one that succeeds if some of them does. -/
theorem part_foldl {σ ω β : Type*} {act : σ → ω → σ} (part : σ → β) (ok : ω → Bool) {g : β → β}
    (hpart : ∀ s o, part (act s o) = if ok o then g (part s) else part s)
    (hg : ∀ x, g (g x) = g x) {os : List ω} {o : ω} (ho : ok o = os.any ok) (s : σ) :
    part (os.foldl act s) = part (act s o) := by
  have hfold : ∀ s, part (os.foldl act s) = if os.any ok then g (part s) else part s := by
    clear ho
    induction os with
    | nil => simp
    | cons o os ih =>
      intro s
      rw [List.foldl_cons, ih, hpart]
      cases hok : ok o <;> cases hany : os.any ok <;> simp [hok, hany, hg]
  rw [hfold, hpart, ho]

end DocStore
