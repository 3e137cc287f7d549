import EthosApp.Dart.DateText

/-!
# What an accepted form text denotes

The validators accept a text that `DateFormat` can parse, and the handlers parse it with
`DateTime.parse` after reversing it. An accepted text begins with two digit runs, which
the reversal puts last, each after a dash. No time of day fits before two dashes, so that
whatever a handler reads from an accepted text is a local midnight.
-/

namespace Dart

open Digits

/-! ## Suffixes and dashes -/

/-- A block of digits takes no dash. -/
theorem take_count {n v : ℕ} {cs rest : List Char} (h : Digits.take n cs = some (v, rest)) :
    rest.count '-' = cs.count '-' := by
  obtain ⟨ds, hds, rfl, _⟩ := take_eq_some h
  have hnone : ds.count '-' = 0 := List.count_eq_zero.mpr hds.dash_notMem
  rw [List.count_append, hnone, Nat.zero_add]

/-- An optional colon takes no dash. -/
theorem optColon_count (cs : List Char) : (DateTime.optColon cs).count '-' = cs.count '-' := by
  unfold DateTime.optColon
  split <;> simp

namespace DateTime

/-- What follows the day part is a suffix of the text. -/
theorem datePart_suffix {n : ℕ} {cs rest : List Char} {d : ℤ × ℕ × ℕ}
    (h : datePart n cs = some (d, rest)) : rest <:+ cs := by
  obtain ⟨sgn, _, ys, e₁, ms, e₂, ds, _, _, _, _, _, _, rfl, _⟩ := datePart_eq_some h
  exact ⟨sgn ++ (ys ++ (e₁ ++ (ms ++ (e₂ ++ ds)))), by simp⟩

/-- A zone offset has no dash after its sign. -/
theorem zoneOffset_count {cs : List Char} {o : ℤ} (h : zoneOffset cs = some o) :
    cs.count '-' = 0 := by
  simp only [zoneOffset, Option.bind_eq_bind, Option.bind_eq_some_iff, Prod.exists] at h
  obtain ⟨_, r₁, h₁, h⟩ := h
  rw [← take_count h₁]
  split at h
  · rename_i hnil
    rw [hnil]
    rfl
  · simp only [Option.bind_eq_some_iff, Prod.exists] at h
    obtain ⟨_, r₂, h₂, h⟩ := h
    rw [← optColon_count, ← take_count h₂]
    split at h
    · rename_i hnil
      rw [hnil]
      rfl
    · cases h

/-- A zone contains at most one dash. -/
theorem zonePart_count {cs : List Char} {o : ℤ × Bool} (h : zonePart cs = some o) :
    cs.count '-' ≤ 1 := by
  have hblank : (optBlank cs).count '-' = cs.count '-' := by
    unfold optBlank
    split <;> simp
  unfold zonePart at h
  split at h
  · rename_i hnil
    rw [hnil]
    decide
  · rw [← hblank]
    split at h
    · rename_i hz
      rw [hz]
      decide
    · rename_i hz
      rw [hz]
      decide
    · rename_i rest hz
      obtain ⟨o', ho', _⟩ := Option.map_eq_some_iff.mp h
      rw [hz, List.count_cons_of_ne (by decide), zoneOffset_count ho']
      decide
    · rename_i rest hz
      obtain ⟨o', ho', _⟩ := Option.map_eq_some_iff.mp h
      rw [hz, List.count_cons_self, zoneOffset_count ho']
    · cases h

/-- Fractional seconds take no dash. -/
theorem fraction_count {cs rest : List Char} {f : ℕ} (h : fraction cs = some (f, rest)) :
    rest.count '-' = cs.count '-' := by
  unfold fraction at h
  split at h
  · rename_i c cs
    split at h
    · rename_i hc
      dsimp only at h
      split at h
      · cases h
      · cases h
        have hnone : (cs.takeWhile Char.isDigit).count '-' = 0 := by
          rw [List.count_eq_zero]
          intro hmem
          cases List.all_eq_true.mp List.all_takeWhile _ hmem
        have hsplit : cs.count '-' = (cs.takeWhile Char.isDigit).count '-' +
            (cs.dropWhile Char.isDigit).count '-' := by
          rw [← List.count_append, List.takeWhile_append_dropWhile]
        have hdash : c ≠ '-' := by
          rintro rfl
          revert hc
          decide
        rw [List.count_cons_of_ne hdash, hsplit, hnone, Nat.zero_add]
    · cases h
      rfl
  · cases h
    rfl

/-- A time of day contains at most one dash, in its zone. -/
theorem clockPart_count {cs : List Char} {t : TimeParts} (h : clockPart cs = some t) :
    cs.count '-' ≤ 1 := by
  simp only [clockPart, Option.bind_eq_bind, Option.bind_eq_some_iff, Prod.exists] at h
  obtain ⟨_, r₁, h₁, h⟩ := h
  rw [← take_count h₁]
  split at h
  · simp only [Option.bind_eq_some_iff] at h
    obtain ⟨_, hz, _⟩ := h
    exact zonePart_count hz
  · rename_i r₂ h₂
    rw [← optColon_count, ← take_count h₂]
    split at h
    · simp only [Option.bind_eq_some_iff] at h
      obtain ⟨_, hz, _⟩ := h
      exact zonePart_count hz
    · rename_i r₃ h₃
      simp only [Option.bind_eq_some_iff, Prod.exists] at h
      obtain ⟨_, r₄, h₄, _, _, hz, _⟩ := h
      rw [← optColon_count, ← take_count h₃, ← fraction_count h₄]
      exact zonePart_count hz

/-- A text that ends in two digit runs, each after a dash, has no time of day. -/
theorem timePart_of_two_dashes {ds es rest cs : List Char} {t : TimeParts}
    (hds : ∀ c ∈ ds, c.isDigit = true) (hes : ∀ c ∈ es, c.isDigit = true)
    (hend : '-' :: (ds ++ '-' :: es) <:+ cs) (hrest : rest <:+ cs) (h : timePart rest = some t) :
    rest = [] := by
  cases rest with
  | nil => rfl
  | cons c rest =>
    simp only [timePart, Option.ite_none_right_eq_some] at h
    obtain ⟨hc, hclock⟩ := h
    exfalso
    rcases List.suffix_or_suffix_of_suffix hrest hend with hinside | hafter
    · -- a blank or a `T` is neither a dash nor a digit
      have hmem : c ∈ '-' :: (ds ++ '-' :: es) := hinside.subset List.mem_cons_self
      simp only [List.mem_cons, List.mem_append] at hmem
      have hdigit : c.isDigit = false := by rcases hc with rfl | rfl <;> rfl
      have hdash : c ≠ '-' := by rcases hc with rfl | rfl <;> decide
      rcases hmem with hmem | hmem | hmem | hmem
      · exact hdash hmem
      · rw [hds c hmem] at hdigit
        cases hdigit
      · exact hdash hmem
      · rw [hes c hmem] at hdigit
        cases hdigit
    · rcases List.suffix_cons_iff.mp hafter with heq | hafter
      · injection heq with hdash _
        rcases hc with rfl | rfl <;> cases hdash
      · -- the two dashes would have to be part of the time
        have hcount := hafter.sublist.count_le '-'
        have hone := clockPart_count hclock
        simp only [List.count_cons_self, List.count_append] at hcount
        omega

end DateTime

/-! ## Accepted texts -/

/-- A digit run at the front of a text. -/
theorem DateFormat.digitRun_eq_some {cs rest : List Char} {n : ℕ}
    (h : DateFormat.digitRun cs = some (n, rest)) :
    ∃ ds : List Char, (∀ c ∈ ds, c.isDigit = true) ∧ cs = ds ++ rest := by
  simp only [DateFormat.digitRun, Option.ite_none_left_eq_some, Option.some.injEq,
    Prod.mk.injEq] at h
  obtain ⟨_, _, rfl⟩ := h
  exact ⟨_, List.all_eq_true.mp List.all_takeWhile, List.takeWhile_append_dropWhile.symm⟩

/-- The literal `/` at the front of a text. -/
theorem DateFormat.slash_eq_some {cs rest : List Char} (h : DateFormat.slash cs = some rest) :
    cs = '/' :: rest := by
  unfold DateFormat.slash at h
  split at h
  · cases h
    rfl
  · cases h

/-- An accepted text begins with two digit runs, each before a slash. -/
theorem DateFormat.parse_isSome {s : String} (h : (DateFormat.parse s).isSome) :
    ∃ ds es rest : List Char, (∀ c ∈ ds, c.isDigit = true) ∧ (∀ c ∈ es, c.isDigit = true) ∧
      s.toList = ds ++ '/' :: (es ++ '/' :: rest) := by
  obtain ⟨t, ht⟩ := Option.isSome_iff_exists.mp h
  simp only [DateFormat.parse, Option.bind_eq_bind, Option.bind_eq_some_iff, Prod.exists] at ht
  obtain ⟨_, r₁, h₁, r₂, h₂, _, r₃, h₃, r₄, h₄, _⟩ := ht
  obtain ⟨ds, hds, hcs⟩ := DateFormat.digitRun_eq_some h₁
  obtain ⟨es, hes, hr₂⟩ := DateFormat.digitRun_eq_some h₃
  exact ⟨ds, es, r₄, hds, hes, by rw [hcs, DateFormat.slash_eq_some h₂, hr₂,
    DateFormat.slash_eq_some h₄]⟩

/-- Joining one more part at the end adds it after the separator. -/
theorem intercalate_concat {sep : List Char} {parts : List (List Char)} (hne : parts ≠ [])
    (part : List Char) :
    sep.intercalate (parts ++ [part]) = sep.intercalate parts ++ sep ++ part := by
  induction parts with
  | nil => exact absurd rfl hne
  | cons p parts ih =>
    cases parts with
    | nil => simp [List.intercalate_cons_cons]
    | cons q parts =>
      rw [List.cons_append, List.cons_append, List.intercalate_cons_cons, ← List.cons_append,
        ih (by simp), List.intercalate_cons_cons]
      simp

/-- The reversed text of two digit runs, each before a slash, and of what follows them. -/
theorem splitReversedJoin_eq {s : String} {ds es rest : List Char}
    (hds : ∀ c ∈ ds, c.isDigit = true) (hes : ∀ c ∈ es, c.isDigit = true)
    (hs : s.toList = ds ++ '/' :: (es ++ '/' :: rest)) :
    (splitReversedJoin '/' '-' s).toList =
      ['-'].intercalate (rest.splitOn '/').reverse ++ '-' :: (es ++ '-' :: ds) := by
  have hslash : '/'.isDigit = false := rfl
  have hparts : s.toList.splitOn '/' = ds :: es :: rest.splitOn '/' := by
    rw [hs, List.splitOn_append_cons_self_of_not_mem (notMem_of_isDigit hslash hds),
      List.splitOn_append_cons_self_of_not_mem (notMem_of_isDigit hslash hes)]
  have hne : (rest.splitOn '/').reverse ≠ [] := by simp
  rw [splitReversedJoin, String.toList_ofList, hparts, List.reverse_cons, List.reverse_cons,
    intercalate_concat (by simp), intercalate_concat hne]
  simp

/-- The reversed text ends in the two digit runs, each after a dash. -/
theorem splitReversedJoin_suffix {s : String} {ds es rest : List Char}
    (hds : ∀ c ∈ ds, c.isDigit = true) (hes : ∀ c ∈ es, c.isDigit = true)
    (hs : s.toList = ds ++ '/' :: (es ++ '/' :: rest)) :
    '-' :: (es ++ '-' :: ds) <:+ (splitReversedJoin '/' '-' s).toList :=
  ⟨_, (splitReversedJoin_eq hds hes hs).symm⟩

/-- **Accepted texts denote days.** What a handler reads from a text that the validators
accept is a local midnight. -/
theorem DateTimeField.parsed_midnight {f : DateTimeField} {t : DateTime}
    (haccepted : (DateFormat.parse f.text).isSome) (hparsed : f.parsed = some t) :
    t = DateTime.midnight t.date := by
  obtain ⟨ds, es, rest, hds, hes, hs⟩ := DateFormat.parse_isSome haccepted
  have hend := splitReversedJoin_suffix hds hes hs
  simp only [DateTimeField.parsed, DateTime.parse, Option.bind_eq_bind,
    Option.bind_eq_some_iff] at hparsed
  obtain ⟨⟨⟨y, m, d⟩, p⟩, hfind, hfields⟩ := hparsed
  obtain ⟨n, _, hmatch⟩ := List.exists_of_findSome?_eq_some hfind
  simp only [DateTime.matchFormat, Option.bind_eq_bind, Option.bind_eq_some_iff, Option.pure_def,
    Option.some.injEq, Prod.mk.injEq, Prod.exists] at hmatch
  obtain ⟨_, _, _, tail, hdate, p', htime, _, rfl⟩ := hmatch
  have hnil := DateTime.timePart_of_two_dashes hes hds hend (DateTime.datePart_suffix hdate) htime
  subst hnil
  cases htime
  simp only [DateTime.ofFields, Option.ite_none_right_eq_some, Option.some.injEq] at hfields
  obtain ⟨_, rfl⟩ := hfields
  ext1
  · rfl
  · simp [DateTime.ofWall, DateTime.midnight, microsPerDay]
  · rfl

end Dart
