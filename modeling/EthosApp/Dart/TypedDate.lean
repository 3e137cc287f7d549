import EthosApp.Dart.FieldDate

/-!
# Typed dates

The validators accept what `DateFormat` reads leniently, and the handlers read the same
text again with `DateTime.parse`. This file determines the texts on which the two
readers agree: two digits for the day and the month, four to six for the year, and
nothing else.
-/

namespace Dart

open Gregorian Digits

/-! ## The shape of a day part -/

namespace DateTime

/-- The last dash of a text is determined. -/
theorem last_dash {a b ds e : List Char} (h : a ++ '-' :: ds = b ++ '-' :: e) (hds : '-' ∉ ds)
    (he : '-' ∉ e) : a = b ∧ ds = e := by
  rcases List.append_eq_append_iff.mp h with ⟨as, rfl, has⟩ | ⟨bs, rfl, hbs⟩
  · cases as with
    | nil =>
      injection has with _ hds
      exact ⟨by simp, hds⟩
    | cons c as =>
      injection has with _ has
      rw [has] at hds
      simp at hds
  · cases bs with
    | nil =>
      injection hbs with _ he
      exact ⟨by simp, he.symm⟩
    | cons c bs =>
      injection hbs with _ hbs
      rw [hbs] at he
      simp at he

/-- Before a dash in a signed text without other dashes, there is nothing. -/
theorem before_dash {sgn cs a b : List Char} {k : ℤ} (hsgn : IsSign sgn k) (hcs : '-' ∉ cs)
    (h : a ++ '-' :: b = sgn ++ cs) : a = [] ∧ sgn = ['-'] ∧ b = cs := by
  have hmem : '-' ∈ sgn ++ cs := by rw [← h]; simp
  rcases hsgn with ⟨rfl, _⟩ | ⟨rfl, _⟩ | ⟨rfl, _⟩
  · exact absurd hmem hcs
  · simp [hcs] at hmem
  · cases a with
    | nil =>
      injection h with _ hb
      exact ⟨rfl, rfl, hb⟩
    | cons c a =>
      injection h with _ ha
      have hafter : a ++ '-' :: b = cs := ha
      rw [← hafter] at hcs
      simp at hcs

/-- A day part that ends in two digit runs after dashes consists of these runs and of the
signed year before them. -/
theorem datePart_shape {n : ℕ} {before es ds cs : List Char} {y : ℤ} {m d : ℕ}
    (hbefore : before ≠ []) (hes : '-' ∉ es) (hds : '-' ∉ ds)
    (hcs : cs = before ++ '-' :: (es ++ '-' :: ds)) (h : datePart n cs = some ((y, m, d), [])) :
    ∃ sgn k ys, IsSign sgn k ∧ Block n ys ∧ before = sgn ++ ys ∧ Block 2 es ∧ Block 2 ds ∧
      y = k * value ys ∧ m = value es ∧ d = value ds := by
  obtain ⟨sgn, k, ys, e₁, ms, e₂, ds', hsgn, hys, he₁, hms, he₂, hds', hpieces, rfl, rfl, rfl⟩ :=
    datePart_eq_some h
  rw [hcs, List.append_nil] at hpieces
  -- whether each of the two optional dashes is there
  rcases he₂ with rfl | rfl
  · exfalso
    rcases he₁ with rfl | rfl
    · have hnone : '-' ∉ ys ++ (ms ++ ds') := by
        simp [hys.dash_notMem, hms.dash_notMem, hds'.dash_notMem]
      exact hbefore (before_dash hsgn hnone (by simpa using hpieces)).1
    · have hnone : '-' ∉ ms ++ ds' := by simp [hms.dash_notMem, hds'.dash_notMem]
      have hlast := (last_dash (a := before ++ '-' :: es) (b := sgn ++ ys) (e := ms ++ ds')
        (by simpa using hpieces) hds hnone).1
      exact hbefore (before_dash hsgn hys.dash_notMem hlast).1
  · rcases he₁ with rfl | rfl
    · exfalso
      have hlast := (last_dash (a := before ++ '-' :: es) (b := sgn ++ (ys ++ ms)) (e := ds')
        (by simpa using hpieces) hds hds'.dash_notMem).1
      have hnone : '-' ∉ ys ++ ms := by simp [hys.dash_notMem, hms.dash_notMem]
      exact hbefore (before_dash hsgn hnone hlast).1
    · obtain ⟨hfront, rfl⟩ := last_dash (a := before ++ '-' :: es)
        (b := sgn ++ (ys ++ '-' :: ms)) (e := ds') (by simpa using hpieces) hds hds'.dash_notMem
      obtain ⟨hyear, rfl⟩ := last_dash (a := before) (b := sgn ++ ys) (e := ms)
        (by simpa using hfront) hes hms.dash_notMem
      exact ⟨sgn, k, ys, hsgn, hys, hyear, hms, hds', rfl, rfl, rfl⟩

/-- The day that three numbers denote, at midnight. -/
abbrev ofDay (y : ℤ) (m d : ℕ) : Option DateTime := ofFields y m d 0 0 0 0 false

/-- A signed year and two blocks after dashes are parsed as that day. -/
theorem parse_blocks {n : ℕ} {s : String} {sgn ys es ds : List Char} {k : ℤ}
    (hsgn : IsSign sgn k) (hys : Block n ys) (hn : 4 ≤ n ∧ n ≤ 6) (hes : Block 2 es)
    (hds : Block 2 ds) (hs : s.toList = sgn ++ ys ++ '-' :: (es ++ '-' :: ds)) :
    parse s = ofDay (k * value ys) (value es) (value ds) := by
  have hfind := findSome_blocks hsgn hys hn hes hds (r := []) rfl
  rw [List.append_nil] at hfind
  rw [List.append_assoc] at hs
  simp only [parse, hs, hfind, Option.bind_eq_bind, Option.bind_some]
  simp

/-- A text that is parsed and ends in two digit runs after dashes is a signed year and two
blocks after dashes. -/
theorem shape_of_parse {s : String} {before es ds : List Char} {t : DateTime}
    (hparse : parse s = some t) (hbefore : before ≠ []) (hes : ∀ c ∈ es, c.isDigit = true)
    (hds : ∀ c ∈ ds, c.isDigit = true) (hs : s.toList = before ++ '-' :: (es ++ '-' :: ds)) :
    ∃ n sgn k ys, IsSign sgn k ∧ Block n ys ∧ (4 ≤ n ∧ n ≤ 6) ∧ before = sgn ++ ys ∧
      Block 2 es ∧ Block 2 ds := by
  have hdash : '-'.isDigit = false := rfl
  simp only [DateTime.parse, Option.bind_eq_bind, Option.bind_eq_some_iff] at hparse
  obtain ⟨_, hfind, _⟩ := hparse
  obtain ⟨n, hn, hmatch⟩ := List.exists_of_findSome?_eq_some hfind
  simp only [DateTime.matchFormat, Option.bind_eq_bind, Option.bind_eq_some_iff, Option.pure_def,
    Option.some.injEq, Prod.exists] at hmatch
  obtain ⟨y, m, d, tail, hdate, p, htime, _⟩ := hmatch
  have hend : '-' :: (es ++ '-' :: ds) <:+ s.toList := ⟨before, hs.symm⟩
  have hnil := timePart_of_two_dashes hes hds hend (datePart_suffix hdate) htime
  subst hnil
  obtain ⟨sgn, k, ys, hsgn, hys, hyear, hes', hds', _⟩ :=
    datePart_shape hbefore (notMem_of_isDigit hdash hes) (notMem_of_isDigit hdash hds) hs hdate
  refine ⟨n, sgn, k, ys, hsgn, hys, ?_, hyear, hes', hds'⟩
  simp only [List.mem_cons, List.not_mem_nil, or_false] at hn
  omega

end DateTime

/-! ## The two readers on one text -/

namespace DateFormat

/-- A digit run before something else. -/
theorem digitRun_append {n : ℕ} {ds : List Char} (rest : List Char) (hds : Block (n + 1) ds)
    (hrest : ∀ c ∈ rest.head?, c.isDigit = false) :
    digitRun (ds ++ rest) = some (value ds, rest) := by
  have hnone : rest.takeWhile Char.isDigit = [] ∧ rest.dropWhile Char.isDigit = rest := by
    cases rest with
    | nil => exact ⟨rfl, rfl⟩
    | cons c rest => simp [hrest c rfl]
  have htake : (ds ++ rest).takeWhile Char.isDigit = ds := by
    rw [List.takeWhile_append_of_pos hds.isDigit, hnone.1, List.append_nil]
  have hdrop : (ds ++ rest).dropWhile Char.isDigit = rest := by
    rw [List.dropWhile_append_of_pos hds.isDigit, hnone.2]
  have hne : ds ≠ [] := by
    rintro rfl
    cases hds.length_eq
  simp [digitRun, htake, hdrop, hne]

/-- Three blocks before slashes, and something else after the year. -/
theorem parse_blocks {n : ℕ} {s : String} {ds es ys r : List Char} (hds : Block 2 ds)
    (hes : Block 2 es) (hys : Block (n + 1) ys) (hrest : ∀ c ∈ r.head?, c.isDigit = false)
    (hs : s.toList = ds ++ '/' :: (es ++ '/' :: (ys ++ r))) :
    parse s = DateTime.ofDay (value ys) (value es) (value ds) := by
  have hslash : ∀ cs, ∀ c ∈ ('/' :: cs).head?, c.isDigit = false := by
    intro cs c hc
    cases hc
    rfl
  simp [parse, hs, digitRun_append _ hds (hslash _), digitRun_append _ hes (hslash _),
    digitRun_append _ hys hrest, slash]

/-- A printed day is read as this day. -/
theorem parse_format {c : CivilDate} (hyear : 0 ≤ c.year ∧ c.year ≤ 9999) :
    parse (format (DateTime.midnight c)) = some (DateTime.midnight c) := by
  obtain ⟨hmonth, hday⟩ := month_day_lt c
  have hread := parse_blocks (s := format (DateTime.midnight c)) (n := 3) (r := [])
    (block_pad (by decide) hday) (block_pad (by decide) hmonth)
    (block_pad (w := 4) (k := c.year.natAbs) (by decide) (by omega)) (by simp)
    (by simp [format, DateTime.midnight])
  have hcast : (c.year.natAbs : ℤ) = c.year := by omega
  rw [hread, value_pad, value_pad, value_pad, hcast]
  exact DateTime.ofFields_civil (k := 0) false (by simp) (by decide)
    (DateTime.inRange_of_year ⟨by omega, hyear.2⟩ (by decide))

end DateFormat

/-- The shape in which both readers agree on a text: two digits, two digits and four to
six digits between slashes. A slash after the year is read as a sign, which makes no
difference to the year zero. -/
def Canonical (t : String) : Prop :=
  ∃ n ds es ys, (4 ≤ n ∧ n ≤ 6) ∧ Block 2 ds ∧ Block 2 es ∧ Block n ys ∧
    (t.toList = ds ++ '/' :: (es ++ '/' :: ys) ∨
      value ys = 0 ∧ t.toList = ds ++ '/' :: (es ++ '/' :: (ys ++ ['/'])))

/-- What follows the month in a text that is parsed: the year, or the year and a slash. -/
theorem rest_of_signed {n : ℕ} {rest sgn ys : List Char} {k : ℤ}
    (hhead : ∃ c ∈ rest.head?, c.isDigit = true) (hsgn : DateTime.IsSign sgn k) (hys : Block n ys)
    (h : ['-'].intercalate (rest.splitOn '/').reverse = sgn ++ ys) :
    (rest = ys ∧ sgn = [] ∧ k = 1) ∨ (rest = ys ++ ['/'] ∧ sgn = ['-'] ∧ k = -1) := by
  have hjoin : ['/'].intercalate (rest.splitOn '/') = rest := List.intercalate_splitOn '/'
  rcases hparts : rest.splitOn '/' with _ | ⟨r₀, _ | ⟨r₁, parts⟩⟩
  · exact absurd hparts (List.splitOn_ne_nil _ _)
  · -- no slash: the rest is the signed year, and it starts with a digit
    rw [hparts] at h hjoin
    rw [List.reverse_singleton, List.intercalate_singleton] at h
    rw [List.intercalate_singleton] at hjoin
    rw [hjoin] at h
    obtain ⟨c, hc, hdigit⟩ := hhead
    rw [h] at hc
    rcases hsgn with ⟨rfl, rfl⟩ | ⟨rfl, rfl⟩ | ⟨rfl, rfl⟩
    · exact Or.inl ⟨h, rfl, rfl⟩
    · cases hc
      cases hdigit
    · cases hc
      cases hdigit
  · -- at least one slash: its dash can only be the sign, with nothing before it
    rw [hparts] at h hjoin
    rw [List.reverse_cons, intercalate_concat (by simp), List.append_assoc] at h
    obtain ⟨hnone, rfl, rfl⟩ := DateTime.before_dash hsgn hys.dash_notMem h
    have hk : k = -1 := by
      rcases hsgn with ⟨hsgn, _⟩ | ⟨hsgn, _⟩ | ⟨_, hk⟩
      · cases hsgn
      · cases hsgn
      · exact hk
    rw [List.reverse_cons] at hnone
    cases parts with
    | nil =>
      rw [List.reverse_nil, List.nil_append, List.intercalate_singleton] at hnone
      subst hnone
      exact Or.inr ⟨by simpa [List.intercalate_cons_cons] using hjoin.symm, rfl, hk⟩
    | cons q parts =>
      rw [intercalate_concat (by simp)] at hnone
      simp at hnone

/-- The text that `DateFormat` has read: two digit runs before slashes, and then a digit. -/
theorem DateFormat.exists_runs {s : String} {v : DateTime} (h : DateFormat.parse s = some v) :
    ∃ ds es rest : List Char, (∀ c ∈ ds, c.isDigit = true) ∧ (∀ c ∈ es, c.isDigit = true) ∧
      (∃ c ∈ rest.head?, c.isDigit = true) ∧ s.toList = ds ++ '/' :: (es ++ '/' :: rest) := by
  simp only [DateFormat.parse, Option.bind_eq_bind, Option.bind_eq_some_iff, Prod.exists] at h
  obtain ⟨_, r₁, h₁, r₂, h₂, _, r₃, h₃, r₄, h₄, _, _, h₅, _⟩ := h
  obtain ⟨ds, hds, hcs⟩ := DateFormat.digitRun_eq_some h₁
  obtain ⟨es, hes, hr₂⟩ := DateFormat.digitRun_eq_some h₃
  refine ⟨ds, es, r₄, hds, hes, ?_, by rw [hcs, DateFormat.slash_eq_some h₂, hr₂,
    DateFormat.slash_eq_some h₄]⟩
  cases r₄ with
  | nil => cases h₅
  | cons c r₄ =>
    refine ⟨c, rfl, ?_⟩
    by_contra hc
    simp [DateFormat.digitRun, hc] at h₅

/-- **What the two readers make of a text.** Where the handler's reader reads an accepted
text at all, the text has the canonical blocks, perhaps with a slash after the year, and
the years that the two readers read differ by the sign. -/
theorem parsed_shape {t : String} {u v : DateTime} (hvalue : DateFormat.parse t = some v)
    (hparsed : DateTime.parse (splitReversedJoin '/' '-' t) = some u) :
    ∃ n ds es ys, (4 ≤ n ∧ n ≤ 6) ∧ Block 2 ds ∧ Block 2 es ∧ Block n ys ∧
      DateTime.ofDay (value ys) (value es) (value ds) = some v ∧
      ((t.toList = ds ++ '/' :: (es ++ '/' :: ys)) ∨
        t.toList = ds ++ '/' :: (es ++ '/' :: (ys ++ ['/'])) ∧
        DateTime.ofDay (-value ys) (value es) (value ds) = some u) := by
  obtain ⟨ds, es, rest, hds, hes, hhead, hs⟩ := DateFormat.exists_runs hvalue
  have hjoin := splitReversedJoin_eq hds hes hs
  have hne : ['-'].intercalate (rest.splitOn '/').reverse ≠ [] := by
    intro hnil
    rcases rest_of_signed hhead (Or.inl ⟨rfl, rfl⟩) (show Block 0 [] from ⟨by simp, rfl⟩) hnil with
      ⟨rfl, _⟩ | ⟨_, hsgn, _⟩
    · simp at hhead
    · cases hsgn
  obtain ⟨n, sgn, k, ys, hsgn, hys, hn, hyear, hes', hds'⟩ :=
    DateTime.shape_of_parse hparsed hne hes hds hjoin
  obtain ⟨m, rfl⟩ := Nat.exists_eq_succ_of_ne_zero (show n ≠ 0 by omega)
  refine ⟨_, ds, es, ys, hn, hds', hes', hys, ?_⟩
  rcases rest_of_signed hhead hsgn hys hyear with ⟨rfl, rfl, rfl⟩ | ⟨rfl, rfl, rfl⟩
  · have hread := DateFormat.parse_blocks hds' hes' hys (r := []) (by simp) (by simpa using hs)
    exact ⟨by rw [← hread, hvalue], Or.inl hs⟩
  · have hread := DateFormat.parse_blocks hds' hes' hys (r := ['/']) (by simp) hs
    rw [hyear] at hjoin
    have hblocks := DateTime.parse_blocks hsgn hys hn hes' hds' hjoin
    refine ⟨by rw [← hread, hvalue], Or.inr ⟨hs, ?_⟩⟩
    rw [← hparsed, hblocks, neg_one_mul]

/-- The day that three numbers denote. -/
theorem date_of_ofDay {y : ℤ} {m d : ℕ} {t : DateTime} (h : DateTime.ofDay y m d = some t) :
    t.date = CivilDate.normalize y m d := by
  simp only [DateTime.ofFields, Option.ite_none_right_eq_some, Option.some.injEq] at h
  obtain ⟨_, rfl⟩ := h
  simp [DateTime.ofWall, microsPerDay]

/-- **What is accepted and what is stored.** A text that the validators accept is read by
the handlers as the day of the field's value exactly if it has the canonical shape. -/
theorem DateTimeField.parsed_iff {t : String} {v : DateTime} (hvalue : (typed t).value = some v) :
    (∃ u, (typed t).parsed = some u ∧ u.date = v.date) ↔ Canonical t := by
  constructor
  · rintro ⟨u, hparsed, hdate⟩
    obtain ⟨n, ds, es, ys, hn, hds, hes, hys, hv, hs | ⟨hs, hu⟩⟩ := parsed_shape hvalue hparsed
    · exact ⟨n, ds, es, ys, hn, hds, hes, hys, Or.inl hs⟩
    · refine ⟨n, ds, es, ys, hn, hds, hes, hys, Or.inr ⟨?_, hs⟩⟩
      rw [date_of_ofDay hu, date_of_ofDay hv] at hdate
      by_contra hzero
      have hlt := CivilDate.normalize_lt (Digits.value es) (Digits.value ds)
        (show -(Digits.value ys : ℤ) < Digits.value ys by omega)
      exact hlt.ne hdate
  · rintro ⟨n, ds, es, ys, hn, hds, hes, hys, hs⟩
    obtain ⟨m, rfl⟩ := Nat.exists_eq_succ_of_ne_zero (show n ≠ 0 by omega)
    have hslash : '/' ∉ ys := by
      intro hmem
      cases hys.isDigit _ hmem
    refine ⟨v, ?_, rfl⟩
    rw [← hvalue, parsed]
    rcases hs with hs | ⟨hzero, hs⟩
    · have hjoin := splitReversedJoin_eq hds.isDigit hes.isDigit hs
      rw [List.splitOn_eq_singleton hslash, List.reverse_singleton,
        List.intercalate_singleton] at hjoin
      have hread := DateFormat.parse_blocks hds hes hys (r := []) (by simp) (by simpa using hs)
      have hblocks := DateTime.parse_blocks (Or.inl ⟨rfl, rfl⟩) hys hn hes hds hjoin
      rw [typed, hread, hblocks, one_mul]
    · have hjoin := splitReversedJoin_eq hds.isDigit hes.isDigit hs
      rw [List.splitOn_append_cons_self_of_not_mem hslash, List.splitOn_nil] at hjoin
      have hread := DateFormat.parse_blocks hds hes hys (r := ['/']) (by simp) hs
      have hsigned : ['-'].intercalate [ys, []].reverse = ['-'] ++ ys := by
        simp [List.intercalate_cons_cons]
      rw [hsigned] at hjoin
      have hblocks := DateTime.parse_blocks (Or.inr (Or.inr ⟨rfl, rfl⟩)) hys hn hes hds hjoin
      rw [typed, hread, hblocks, hzero]
      rfl

/-- The text `15/01/2023` is stored as the accepted day. -/
theorem DateTimeField.parsed_iff_canonical :
    ∃ u, (typed "15/01/2023").parsed = some u ∧ u.date = ⟨2023, 1, 15, by decide, by decide,
      by decide, by decide⟩ :=
  (parsed_iff (v := DateTime.midnight ⟨2023, 1, 15, by decide, by decide, by decide, by decide⟩)
    (by decide +kernel)).mpr
    ⟨4, pad 2 15, pad 2 1, pad 4 2023, by decide, block_pad (by decide) (by decide),
      block_pad (by decide) (by decide), block_pad (by decide) (by decide),
      Or.inl (by decide)⟩

/-- The text `1/2/2023` is accepted as 1 February 2023 and cannot be read by a handler, and
`01/02/2023/` is read as a day of the year -2023. -/
theorem DateTimeField.not_parsed_short :
    ((typed "1/2/2023").value.map DateTime.isoDay, (typed "1/2/2023").parsed) =
      (some "2023-02-01", none) ∧
    ((typed "01/02/2023/").value.map DateTime.isoDay,
      (typed "01/02/2023/").parsed.map fun u => u.date.year) =
        (some "2023-02-01", some (-2023)) := by
  decide +kernel

end Dart
