import EthosApp.Dart.DateTime

/-!
# The day part of a date text

The accepted format begins with a signed year of four to six digits, a month and a day. A
text whose parts are separated by dashes is read with the width that its year has: a
wider year would run over a dash.
-/

namespace Dart

open Digits

/-- A block of decimal digits of known width. -/
structure Block (n : ℕ) (ds : List Char) : Prop where
  /-- All characters are digits. -/
  isDigit : ∀ c ∈ ds, c.isDigit = true
  /-- The block has the width. -/
  length_eq : ds.length = n

/-- A dash is not part of a block of digits. -/
theorem Block.dash_notMem {n : ℕ} {ds : List Char} (hds : Block n ds) : '-' ∉ ds := by
  intro hmem
  cases hds.isDigit _ hmem

/-- What a reader of digits has consumed. -/
theorem take_eq_some {n v : ℕ} {cs rest : List Char} (h : Digits.take n cs = some (v, rest)) :
    ∃ ds, Block n ds ∧ cs = ds ++ rest ∧ v = value ds := by
  simp only [Digits.take, Option.ite_none_right_eq_some, Option.some.injEq, Prod.mk.injEq] at h
  obtain ⟨⟨hlength, hall⟩, rfl, rfl⟩ := h
  exact ⟨cs.take n, ⟨List.all_eq_true.mp hall, hlength⟩, (List.take_append_drop n cs).symm, rfl⟩

/-- A block is read with its width. -/
theorem Block.take {n : ℕ} {ds : List Char} (hds : Block n ds) (rest : List Char) :
    Digits.take n (ds ++ rest) = some (value ds, rest) := by
  have h := take_append rest (List.all_eq_true.mpr hds.isDigit)
  rwa [hds.length_eq] at h

/-- A padded number is a block of its own width. -/
theorem block_pad_length (w k : ℕ) : Block (pad w k).length (pad w k) :=
  ⟨fun _ => isDigit_of_mem_pad, rfl⟩

/-- A number that fits a width is a block of that width. -/
theorem block_pad {w k : ℕ} (hw : 0 < w) (hk : k < 10 ^ w) : Block w (pad w k) := by
  have hblock := block_pad_length w k
  rwa [pad_length hw hk] at hblock

namespace DateTime

/-- An optional sign with its factor. -/
def IsSign (sgn : List Char) (k : ℤ) : Prop :=
  (sgn = [] ∧ k = 1) ∨ (sgn = ['+'] ∧ k = 1) ∨ (sgn = ['-'] ∧ k = -1)

/-- An optional dash. -/
def IsDash (e : List Char) : Prop := e = [] ∨ e = ['-']

/-- What an optional dash leaves. -/
theorem exists_dash (cs : List Char) : ∃ e, IsDash e ∧ cs = e ++ optDash cs := by
  unfold optDash
  split
  · exact ⟨['-'], Or.inr rfl, rfl⟩
  · exact ⟨[], Or.inl rfl, rfl⟩

/-- What an optional sign leaves. -/
theorem exists_sign (cs : List Char) :
    ∃ sgn, IsSign sgn (optSign cs).1 ∧ cs = sgn ++ (optSign cs).2 := by
  unfold optSign
  split
  · exact ⟨['+'], Or.inr (Or.inl ⟨rfl, rfl⟩), rfl⟩
  · exact ⟨['-'], Or.inr (Or.inr ⟨rfl, rfl⟩), rfl⟩
  · exact ⟨[], Or.inl ⟨rfl, rfl⟩, rfl⟩

/-- The pieces of a day part: sign, year, month and day, with optional dashes. -/
theorem datePart_eq_some {n : ℕ} {cs rest : List Char} {y : ℤ} {m d : ℕ}
    (h : datePart n cs = some ((y, m, d), rest)) :
    ∃ sgn k ys e₁ ms e₂ ds, IsSign sgn k ∧ Block n ys ∧ IsDash e₁ ∧ Block 2 ms ∧ IsDash e₂ ∧
      Block 2 ds ∧ cs = sgn ++ (ys ++ (e₁ ++ (ms ++ (e₂ ++ (ds ++ rest))))) ∧
      y = k * value ys ∧ m = value ms ∧ d = value ds := by
  simp only [datePart, Option.bind_eq_bind, Option.bind_eq_some_iff, Option.pure_def,
    Option.some.injEq, Prod.mk.injEq, Prod.exists] at h
  obtain ⟨_, r₁, h₁, _, r₂, h₂, _, r₃, h₃, ⟨rfl, rfl, rfl⟩, rfl⟩ := h
  obtain ⟨sgn, hsgn, hcs⟩ := exists_sign cs
  obtain ⟨ys, hys, hr, rfl⟩ := take_eq_some h₁
  obtain ⟨e₁, he₁, hr₁⟩ := exists_dash r₁
  obtain ⟨ms, hms, hr', rfl⟩ := take_eq_some h₂
  obtain ⟨e₂, he₂, hr₂⟩ := exists_dash r₂
  obtain ⟨ds, hds, hr'', rfl⟩ := take_eq_some h₃
  refine ⟨sgn, _, ys, e₁, ms, e₂, ds, hsgn, hys, he₁, hms, he₂, hds, ?_, rfl, rfl, rfl⟩
  rw [hcs, hr, hr₁, hr', hr₂, hr'']

/-- A text beginning with a digit has no sign. -/
theorem optSign_of_isDigit {c : Char} (cs : List Char) (hc : c.isDigit = true) :
    optSign (c :: cs) = (1, c :: cs) := by
  unfold optSign
  split
  · rename_i h
    cases h
    cases hc
  · rename_i h
    cases h
    cases hc
  · rfl

/-- A text beginning with a digit has no dash. -/
theorem optDash_of_isDigit {c : Char} (cs : List Char) (hc : c.isDigit = true) :
    optDash (c :: cs) = c :: cs := by
  unfold optDash
  split
  · rename_i h
    cases h
    cases hc
  · rfl

/-- The sign before a block is read. -/
theorem IsSign.optSign {n : ℕ} {sgn ys : List Char} {k : ℤ} (hsgn : IsSign sgn k)
    (hys : Block n ys) (hn : 0 < n) (cs : List Char) :
    DateTime.optSign (sgn ++ (ys ++ cs)) = (k, ys ++ cs) := by
  rcases hsgn with ⟨rfl, rfl⟩ | ⟨rfl, rfl⟩ | ⟨rfl, rfl⟩
  · rcases ys with _ | ⟨c, ys⟩
    · exact absurd hys.length_eq (by simp; omega)
    · exact optSign_of_isDigit _ (hys.isDigit c List.mem_cons_self)
  · rfl
  · rfl

/-- Reading more year digits than are written stops at the dash. -/
theorem matchFormat_wide {n w : ℕ} {sgn ys : List Char} {k : ℤ} (hsgn : IsSign sgn k)
    (hys : Block n ys) (hn : 0 < n) (hw : n < w) (cs : List Char) :
    matchFormat w (sgn ++ (ys ++ '-' :: cs)) = none := by
  have hyear := take_eq_none (c := '-') ys cs rfl
    (show ys.length < w by rw [hys.length_eq]; exact hw)
  simp [matchFormat, datePart, hsgn.optSign hys hn, hyear]

/-- A signed year and two blocks after dashes, followed by an accepted time part, match with
the width of the year and with no wider one. -/
theorem findSome_blocks {n : ℕ} {sgn ys es ds r : List Char} {k : ℤ} {t : TimeParts}
    (hsgn : IsSign sgn k) (hys : Block n ys) (hn : 4 ≤ n ∧ n ≤ 6) (hes : Block 2 es)
    (hds : Block 2 ds) (hrest : timePart r = some t) :
    [6, 5, 4].findSome? (fun n => matchFormat n
      (sgn ++ (ys ++ '-' :: (es ++ '-' :: (ds ++ r))))) =
        some ((k * value ys, value es, value ds), t) := by
  have hpos : 0 < n := by omega
  have hmatch : matchFormat n (sgn ++ (ys ++ '-' :: (es ++ '-' :: (ds ++ r)))) =
      some ((k * value ys, value es, value ds), t) := by
    simp [matchFormat, datePart, hsgn.optSign hys hpos, hys.take, optDash, hes.take, hds.take,
      hrest]
  have hwide : ∀ w, n < w → matchFormat w (sgn ++ (ys ++ '-' :: (es ++ '-' :: (ds ++ r)))) = none :=
    fun w hw => matchFormat_wide hsgn hys hpos hw _
  -- the width of the year is 4, 5 or 6
  obtain rfl | rfl | rfl : n = 4 ∨ n = 5 ∨ n = 6 := by omega
  · simp [List.findSome?, hwide 6 (by decide), hwide 5 (by decide), hmatch]
  · simp [List.findSome?, hwide 6 (by decide), hmatch]
  · simp [List.findSome?, hmatch]

end DateTime

end Dart
