import Mathlib.Data.List.Basic
import Mathlib.Algebra.Group.Nat.Defs

/-!
# Fixed-width decimal fields

A textual date is a sequence of zero-padded decimal numbers and separators. This
file relates the printed form `pad` of such a number to the reader `take`, which
consumes an exact number of decimal digits. A digit block of known width and the
number it denotes determine each other, which is all a reader of dates needs.
-/

namespace Digits

/-- The decimal digits of `n`, padded on the left with zeros to width `w`. Longer
numbers are printed in full. -/
def pad (w n : ℕ) : List Char := List.leftpad w '0' (Nat.toDigits 10 n)

/-- The number denoted by a block of decimal digits. -/
def value (ds : List Char) : ℕ := Nat.ofDigitChars 10 ds 0

/-- Consume exactly `n` decimal digits from the front of a text. -/
def take (n : ℕ) (cs : List Char) : Option (ℕ × List Char) :=
  if (cs.take n).length = n ∧ (cs.take n).all Char.isDigit then
    some (value (cs.take n), cs.drop n)
  else none

/-- A digit character carries a number below ten, and is determined by it. -/
theorem digitChar_of_isDigit {c : Char} (hc : c.isDigit = true) :
    c.toNat - 48 < 10 ∧ Nat.digitChar (c.toNat - 48) = c := by
  have hrange : 48 ≤ c.toNat ∧ c.toNat ≤ 57 := Char.isDigit_iff_toNat.mp hc
  refine ⟨by omega, ?_⟩
  apply Char.toNat_inj.mp
  rw [Nat.toNat_digitChar_of_lt_ten (by omega)]
  omega

/-- Every character of a padded number is a decimal digit. -/
theorem isDigit_of_mem_pad {w n : ℕ} {c : Char} (hc : c ∈ pad w n) : c.isDigit = true := by
  simp only [pad, List.leftpad, List.mem_append, List.mem_replicate] at hc
  rcases hc with ⟨_, rfl⟩ | hc
  · rfl
  · exact Nat.isDigit_of_mem_toDigits (by decide) (by decide) hc

/-- A separator never occurs inside a run of digits. -/
theorem notMem_of_isDigit {ds : List Char} {c : Char} (hc : c.isDigit = false)
    (hds : ∀ d ∈ ds, d.isDigit = true) : c ∉ ds := by
  intro hmem
  rw [hds c hmem] at hc
  cases hc

/-- A separator never occurs inside a padded number. -/
theorem notMem_pad {w n : ℕ} {c : Char} (hc : c.isDigit = false) : c ∉ pad w n :=
  notMem_of_isDigit hc fun _ => isDigit_of_mem_pad

/-- A padded number that fits the width has exactly that width. -/
theorem pad_length {w n : ℕ} (hw : 0 < w) (hn : n < 10 ^ w) : (pad w n).length = w := by
  have hle := (Nat.length_toDigits_le_iff (b := 10) (by decide) hw).mpr hn
  rw [pad, List.length_leftpad]
  omega

/-- Padded numbers that fit one width are equally long. -/
theorem pad_length_eq {w m n : ℕ} (hw : 0 < w) (hm : m < 10 ^ w) (hn : n < 10 ^ w) :
    (pad w m).length = (pad w n).length := by
  rw [pad_length hw hm, pad_length hw hn]

/-- Padding never shortens a number, and lengthens it to the width at most. -/
theorem length_pad_bounds {w n k : ℕ} (hk : 0 < k) (hn : n < 10 ^ k) :
    w ≤ (pad w n).length ∧ (pad w n).length ≤ max w k := by
  have hle := (Nat.length_toDigits_le_iff (b := 10) (by decide) hk).mpr hn
  rw [pad, List.length_leftpad]
  omega

/-- A padded number fills its width. -/
theorem le_length_pad (w n : ℕ) : w ≤ (pad w n).length := by
  rw [pad, List.length_leftpad]
  exact Nat.le_max_left _ _

/-- Reading a padded number back gives the number. -/
@[simp] theorem value_pad (w n : ℕ) : value (pad w n) = n := by
  rw [value, pad, List.leftpad, Nat.ofDigitChars_append, Nat.ofDigitChars_replicate_zero,
    Nat.mul_zero]
  exact Nat.ofDigitChars_toDigits (by decide) (by decide)

/-- Padding loses nothing: two numbers with the same padded form are equal. -/
theorem pad_injective {w m n : ℕ} (h : pad w m = pad w n) : m = n := by
  rw [← value_pad w m, h, value_pad]

/-- One more digit on the left adds its weight to the value. -/
theorem value_cons (c : Char) (ds : List Char) :
    value (c :: ds) = 10 ^ ds.length * (c.toNat - 48) + value ds := by
  rw [value, Nat.ofDigitChars_cons, Nat.ofDigitChars_eq_ofDigitChars_zero]
  simp [value]

/-- A block of `w` digits denotes a number below `10 ^ w`. -/
theorem value_lt {ds : List Char} (hds : ds.all Char.isDigit) : value ds < 10 ^ ds.length := by
  induction ds with
  | nil => simp [value]
  | cons c ds ih =>
    rw [List.all_cons, Bool.and_eq_true] at hds
    have hc := (digitChar_of_isDigit hds.1).1
    have htail := ih hds.2
    have hweight := Nat.mul_le_mul_left (10 ^ ds.length) (show c.toNat - 48 + 1 ≤ 10 by omega)
    rw [Nat.mul_succ] at hweight
    rw [value_cons, List.length_cons, pow_succ]
    omega

/-- Reading the width of a digit block at the front of a text returns its value. -/
theorem take_append {ds : List Char} (rest : List Char) (hds : ds.all Char.isDigit) :
    take ds.length (ds ++ rest) = some (value ds, rest) := by
  have htake : (ds ++ rest).take ds.length = ds := by simp
  rw [take, htake, if_pos ⟨rfl, hds⟩, List.drop_left]

/-- Reading the width of a padded number returns the number. -/
theorem take_pad {w n : ℕ} (rest : List Char) (hw : 0 < w) (hn : n < 10 ^ w) :
    take w (pad w n ++ rest) = some (n, rest) := by
  have hall : (pad w n).all Char.isDigit :=
    List.all_eq_true.mpr fun c hc => isDigit_of_mem_pad hc
  have h := take_append rest hall
  rwa [pad_length hw hn, value_pad] at h

/-- A separator inside the first `n` characters stops the reader. -/
theorem take_eq_none {n : ℕ} {c : Char} (ds rest : List Char) (hc : c.isDigit = false)
    (hlen : ds.length < n) : take n (ds ++ c :: rest) = none := by
  have hmem : c ∈ (ds ++ c :: rest).take n := by
    rw [List.take_append, List.take_of_length_le (Nat.le_of_lt hlen)]
    obtain ⟨k, hk⟩ := Nat.exists_eq_add_of_lt hlen
    have hsub : n - ds.length = k + 1 := by omega
    simp [hsub]
  have hall : ¬ ((ds ++ c :: rest).take n).all Char.isDigit := by
    intro hall
    have := List.all_eq_true.mp hall c hmem
    rw [hc] at this
    cases this
  exact if_neg fun h => hall h.2

/-- A text that is too short stops the reader. -/
theorem take_eq_none_of_length {n : ℕ} {cs : List Char} (hlen : cs.length < n) :
    take n cs = none := by
  apply if_neg
  intro h
  have := h.1
  rw [List.length_take] at this
  omega

/-! ## The lexicographic order -/

/-- The lexicographic order of texts, by the codes of their characters. -/
def Before (s t : List Char) : Prop := List.Lex (fun a b => a.toNat < b.toNat) s t

instance (s t : List Char) : Decidable (Before s t) := inferInstanceAs (Decidable (List.Lex _ s t))

/-- Texts that differ in their first characters are ordered by them. -/
theorem before_cons {c d : Char} {s t : List Char} :
    Before (c :: s) (d :: t) ↔ c.toNat < d.toNat ∨ c = d ∧ Before s t := List.cons_lex_cons_iff

/-- Texts that begin with blocks of one length are ordered by these blocks first. -/
theorem before_append {a b s t : List Char} (hlength : a.length = b.length) :
    Before (a ++ s) (b ++ t) ↔ Before a b ∨ a = b ∧ Before s t := by
  induction a generalizing b with
  | nil =>
    cases List.length_eq_zero_iff.mp hlength.symm
    have hnil : ¬ Before [] [] := List.not_lex_nil
    simp [hnil]
  | cons c a ih =>
    obtain ⟨d, b, rfl⟩ := List.exists_cons_of_length_eq_add_one hlength.symm
    have hrest := ih (b := b) (by simpa using hlength)
    simp only [List.cons_append, before_cons, hrest, List.cons.injEq]
    grind

/-- Digit blocks of one length are ordered as the numbers they denote. -/
theorem before_iff_value_lt {ds es : List Char} (hds : ds.all Char.isDigit)
    (hes : es.all Char.isDigit) (hlength : ds.length = es.length) :
    Before ds es ↔ value ds < value es := by
  induction ds generalizing es with
  | nil =>
    cases List.length_eq_zero_iff.mp hlength.symm
    have hnil : ¬ Before [] [] := List.not_lex_nil
    simp [hnil]
  | cons c ds ih =>
    obtain ⟨d, es, rfl⟩ := List.exists_cons_of_length_eq_add_one hlength.symm
    have hlength' : ds.length = es.length := by simpa using hlength
    rw [List.all_cons, Bool.and_eq_true] at hds hes
    have hc := digitChar_of_isDigit hds.1
    have hd := digitChar_of_isDigit hes.1
    have hdsLt := value_lt hds.2
    have hesLt := value_lt hes.2
    have hc0 : 48 ≤ c.toNat := (Char.isDigit_iff_toNat.mp hds.1).1
    have hd0 : 48 ≤ d.toNat := (Char.isDigit_iff_toNat.mp hes.1).1
    rw [before_cons, ih hds.2 hes.2 hlength', value_cons, value_cons, ← hlength']
    rw [← hlength'] at hesLt
    rcases Nat.lt_trichotomy c.toNat d.toNat with hlt | heq | hlt
    · have hweight := Nat.mul_le_mul_left (10 ^ ds.length)
        (show c.toNat - 48 + 1 ≤ d.toNat - 48 by omega)
      rw [Nat.mul_succ] at hweight
      exact iff_of_true (Or.inl hlt) (by omega)
    · have heq' : c = d := Char.toNat_inj.mp heq
      subst heq'
      simp
    · have hne : c ≠ d := by
        rintro rfl
        omega
      have hweight := Nat.mul_le_mul_left (10 ^ ds.length)
        (show d.toNat - 48 + 1 ≤ c.toNat - 48 by omega)
      rw [Nat.mul_succ] at hweight
      refine iff_of_false ?_ (by omega)
      rintro (h | ⟨h, _⟩)
      · omega
      · exact hne h

/-- Padded numbers of one width are ordered as the numbers. -/
theorem before_pad {w m n : ℕ} (hw : 0 < w) (hm : m < 10 ^ w) (hn : n < 10 ^ w) :
    Before (pad w m) (pad w n) ↔ m < n := by
  have hall : ∀ k, (pad w k).all Char.isDigit := fun k =>
    List.all_eq_true.mpr fun c hc => isDigit_of_mem_pad hc
  rw [before_iff_value_lt (hall m) (hall n) (pad_length_eq hw hm hn), value_pad, value_pad]

/-- Digit blocks of one length that denote one number are equal. -/
theorem value_injective {ds es : List Char} (hds : ds.all Char.isDigit)
    (hes : es.all Char.isDigit) (hlength : ds.length = es.length) (hvalue : value ds = value es) :
    ds = es := by
  induction ds generalizing es with
  | nil => exact (List.length_eq_zero_iff.mp hlength.symm).symm
  | cons c ds ih =>
    obtain ⟨d, es, rfl⟩ := List.exists_cons_of_length_eq_add_one hlength.symm
    have hlength' : ds.length = es.length := by simpa using hlength
    rw [List.all_cons, Bool.and_eq_true] at hds hes
    have hdsLt := value_lt hds.2
    have hesLt := value_lt hes.2
    rw [value_cons, value_cons, ← hlength'] at hvalue
    rw [← hlength'] at hesLt
    have hdigit : c.toNat - 48 = d.toNat - 48 := by
      have hleft := congrArg (· / 10 ^ ds.length) hvalue
      simpa [Nat.mul_add_div (Nat.zero_lt_of_lt hdsLt), Nat.div_eq_of_lt hdsLt,
        Nat.div_eq_of_lt hesLt] using hleft
    rw [hdigit] at hvalue
    have htail := ih hds.2 hes.2 hlength' (by omega)
    rw [htail, ← (digitChar_of_isDigit hds.1).2, hdigit, (digitChar_of_isDigit hes.1).2]

/-- A block of digits is the padded form of the number it denotes. -/
theorem pad_value {ds : List Char} (hds : ds.all Char.isDigit) (hne : ds ≠ []) :
    pad ds.length (value ds) = ds := by
  have hlength := pad_length (List.length_pos_of_ne_nil hne) (value_lt hds)
  refine value_injective ?_ hds hlength (value_pad _ _)
  exact List.all_eq_true.mpr fun c hc => isDigit_of_mem_pad hc

end Digits
