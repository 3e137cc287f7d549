import EthosApp.Lib.DocumentStore
import Mathlib.Data.List.DropRight
import Mathlib.Data.List.Infix

/-!
# `cloud_firestore`

Documents are addressed by a path below their collection. The text given to
`collection(...).doc(...)` is split at `/`, so that a text with several segments
addresses a document of a subcollection, which a query on the collection does not see.
-/

namespace Firestore

/-- A field value. -/
inductive Value
  | null
  | str (s : String)
  | bool (b : Bool)
  | int (n : ℤ)
  deriving DecidableEq

/-- The data of a document, `Map<String, Object?>`. -/
abbrev Doc := DocStore.Doc String Value

/-- A map literal `{key: value, ...}`. -/
abbrev MapLiteral := List (String × Value)

/-- The segments of a document path below its collection. -/
abbrev Path := List String

/-- A collection together with its subcollections. -/
abbrev Collection := DocStore.Collection Path String Value

/-- The segments of a text split at `/`, without the empty ones. -/
def segments (p : String) : Path :=
  ((p.toList.splitOn '/').filter (· ≠ [])).map String.ofList

/-- `doc(p)`. A path containing `//` and one that names a collection are rejected. -/
def docPath (p : String) : Option Path :=
  if ['/', '/'] <:+: p.toList ∨ (segments p).length % 2 = 0 then none else some (segments p)

/-- A text that is a segment up to a separator before and one after it. -/
def Names (p s : String) : Prop :=
  s ≠ "" ∧ '/' ∉ s.toList ∧ (p = s ∨ p = "/" ++ s ∨ p = s ++ "/" ∨ p = "/" ++ s ++ "/")

instance (p s : String) : Decidable (Names p s) := inferInstanceAs (Decidable (_ ∧ _ ∧ _))

/-- The documents returned by a query on the collection itself. -/
def docs (c : Collection) : List Doc :=
  (c.entries.filter fun e => e.1.length = 1).map Sigma.snd

/-- `value! as String`. -/
def asString : Option Value → Option String
  | some (.str s) => some s
  | _ => none

/-- `value as String?`. The outer option is the thrown type error. -/
def asNullableString : Option Value → Option (Option String)
  | none => some none
  | some .null => some none
  | some (.str s) => some (some s)
  | _ => none

/-- `value! as bool`. -/
def asBool : Option Value → Option Bool
  | some (.bool b) => some b
  | _ => none

/-- What the server answers to a write. -/
inductive Outcome
  | success
  | failure
  deriving DecidableEq

/-- A cast to `String` succeeds on texts only. -/
theorem asString_eq_some {v : Option Value} {s : String} :
    asString v = some s ↔ v = some (.str s) := by
  cases v with
  | none => simp [asString]
  | some v => cases v <;> simp [asString]

/-- A text with one segment is split into that segment among empty parts. -/
theorem segments_eq_singleton {p s : String} : segments p = [s] ↔
    ∃ l₁ l₂ : List (List Char), p.toList.splitOn '/' = l₁ ++ s.toList :: l₂ ∧
      (∀ x ∈ l₁, x = []) ∧ s.toList ≠ [] ∧ ∀ x ∈ l₂, x = [] := by
  have hmap : segments p = [s] ↔ ((p.toList.splitOn '/').filter (· ≠ [])) = [s.toList] := by
    unfold segments
    constructor
    · intro h
      obtain ⟨l, hl, hs⟩ := List.map_eq_singleton_iff.mp h
      rw [hl, ← hs, String.toList_ofList]
    · intro h
      rw [h, List.map_singleton, String.ofList_toList]
  rw [hmap, List.filter_eq_cons_iff]
  simp

/-- The parts of a split text do not contain the separator. -/
theorem notMem_of_mem_splitOn {a : Char} {l xs : List Char} (hl : l ∈ xs.splitOn a) : a ∉ l := by
  induction xs generalizing l with
  | nil =>
    rw [List.splitOn_nil, List.mem_singleton] at hl
    simp [hl]
  | cons x xs ih =>
    rw [List.splitOn_cons_eq_if_modifyHead] at hl
    split at hl
    · rcases List.mem_cons.mp hl with rfl | hl
      · simp
      · exact ih hl
    · rename_i hx
      cases hsplit : xs.splitOn a with
      | nil => simp [hsplit] at hl
      | cons y ys =>
        rw [hsplit, List.modifyHead_cons] at hl
        rcases List.mem_cons.mp hl with rfl | hl
        · have hy := ih (l := y) (by simp [hsplit])
          have hne : x ≠ a := by simpa using hx
          simp [hy, hne.symm]
        · exact ih (by simp [hsplit, hl])

/-- A segment is not empty and does not contain the separator. -/
theorem notMem_of_mem_segments {p s : String} (hs : s ∈ segments p) :
    s ≠ "" ∧ '/' ∉ s.toList := by
  obtain ⟨l, hl, rfl⟩ := List.mem_map.mp hs
  obtain ⟨hsplit, hne⟩ := List.mem_filter.mp hl
  rw [String.toList_ofList]
  refine ⟨?_, notMem_of_mem_splitOn hsplit⟩
  rintro hempty
  rw [String.ofList_eq_empty_iff] at hempty
  simp [hempty] at hne

/-- Empty parts around one part are joined to separators around it. -/
theorem intercalate_around {l₁ l₂ : List (List Char)} (s : List Char) (h₁ : ∀ x ∈ l₁, x = [])
    (h₂ : ∀ x ∈ l₂, x = []) : List.intercalate ['/'] (l₁ ++ s :: l₂) =
      List.replicate l₁.length '/' ++ s ++ List.replicate l₂.length '/' := by
  induction l₁ with
  | cons x l₁ ih =>
    have hx := h₁ x (by simp)
    subst hx
    have hrest := ih fun x hx => h₁ x (List.mem_cons_of_mem _ hx)
    rw [List.cons_append, List.intercalate_cons_of_ne_nil (by simp), hrest]
    simp [List.replicate_succ]
  | nil =>
    simp only [List.nil_append, List.length_nil, List.replicate_zero]
    induction l₂ generalizing s with
    | nil => simp
    | cons x l₂ ih =>
      have hx := h₂ x (by simp)
      subst hx
      have hrest := ih [] fun x hx => h₂ x (List.mem_cons_of_mem _ hx)
      rw [List.intercalate_cons_of_ne_nil (by simp), hrest]
      simp [List.replicate_succ]

/-- A segment with at most one separator at its end has no doubled separator. -/
theorem not_doubled {s : List Char} {j : ℕ} (hslash : '/' ∉ s) (hj : j ≤ 1) :
    ¬ ['/', '/'] <:+: s ++ List.replicate j '/' := by
  intro hinfix
  have hcount := hinfix.sublist.count_le '/'
  rw [List.count_append, List.count_eq_zero_of_not_mem hslash, List.count_replicate_self] at hcount
  have htwo : List.count '/' ['/', '/'] = 2 := by decide
  omega

/-- Around a segment, a doubled separator is one of at least two at an end. -/
theorem doubled_around {s : List Char} {i j : ℕ} (hne : s ≠ []) (hslash : '/' ∉ s) :
    ['/', '/'] <:+: List.replicate i '/' ++ s ++ List.replicate j '/' ↔ 2 ≤ i ∨ 2 ≤ j := by
  have htwo : ∀ k, 2 ≤ k → ['/', '/'] <:+: List.replicate k '/' := by
    intro k hk
    obtain ⟨m, rfl⟩ := Nat.exists_eq_add_of_le hk
    rw [List.replicate_add]
    exact (List.prefix_append _ _).isInfix
  constructor
  · intro hinfix
    by_contra hle
    rw [not_or, not_le, not_le] at hle
    have hnone := not_doubled hslash (show j ≤ 1 by omega)
    rw [List.append_assoc] at hinfix
    obtain rfl | rfl : i = 0 ∨ i = 1 := by omega
    · exact hnone hinfix
    · rw [List.replicate_one, List.singleton_append, List.infix_cons_iff] at hinfix
      rcases hinfix with hprefix | hinfix
      · obtain ⟨c, s, rfl⟩ := List.exists_cons_of_ne_nil hne
        rw [List.cons_append, List.cons_prefix_cons, List.cons_prefix_cons] at hprefix
        exact hslash (by simp [← hprefix.2.1])
      · exact hnone hinfix
  · rintro (hi | hj)
    · rw [List.append_assoc]
      exact (htwo i hi).trans (List.prefix_append _ _).isInfix
    · exact (htwo j hj).trans (List.suffix_append _ _).isInfix

/-- The texts that name a segment, by their characters. -/
theorem names_iff {p s : String} : Names p s ↔ s.toList ≠ [] ∧ '/' ∉ s.toList ∧
    ∃ i j, i ≤ 1 ∧ j ≤ 1 ∧
      p.toList = List.replicate i '/' ++ s.toList ++ List.replicate j '/' := by
  have htext : ∀ q : String, p = q ↔ p.toList = q.toList := fun q => String.toList_inj.symm
  have hempty : s ≠ "" ↔ s.toList ≠ [] := by simp
  rw [Names, hempty, htext, htext, htext, htext]
  refine and_congr_right fun _ => and_congr_right fun _ => ?_
  simp only [String.toList_append]
  constructor
  · rintro (h | h | h | h)
    · exact ⟨0, 0, by simp, by simp, by simpa using h⟩
    · exact ⟨1, 0, by simp, by simp, by simpa using h⟩
    · exact ⟨0, 1, by simp, by simp, by simpa using h⟩
    · exact ⟨1, 1, by simp, by simp, by simpa using h⟩
  · rintro ⟨i, j, hi, hj, h⟩
    obtain rfl | rfl : i = 0 ∨ i = 1 := by omega
    · obtain rfl | rfl : j = 0 ∨ j = 1 := by omega
      · exact Or.inl (by simpa using h)
      · exact Or.inr (Or.inr (Or.inl (by simpa using h)))
    · obtain rfl | rfl : j = 0 ∨ j = 1 := by omega
      · exact Or.inr (Or.inl (by simpa using h))
      · exact Or.inr (Or.inr (Or.inr (by simpa using h)))

/-- **The texts of one document.** A text addresses the document of the collection under
a segment if it is that segment up to a separator before and one after it. -/
theorem docPath_eq_singleton {p s : String} : docPath p = some [s] ↔ Names p s := by
  rw [names_iff]
  constructor
  · intro hpath
    simp only [docPath, Option.ite_none_left_eq_some, Option.some.injEq] at hpath
    obtain ⟨hvalid, hsegments⟩ := hpath
    rw [not_or] at hvalid
    obtain ⟨l₁, l₂, hsplit, h₁, hne, h₂⟩ := segments_eq_singleton.mp hsegments
    have hslash : '/' ∉ s.toList := notMem_of_mem_splitOn (by rw [hsplit]; simp)
    have htext : p.toList = List.replicate l₁.length '/' ++ s.toList ++
        List.replicate l₂.length '/' := by
      rw [← intercalate_around s.toList h₁ h₂, ← hsplit, List.intercalate_splitOn]
    have hdoubled := hvalid.1
    rw [htext, doubled_around hne hslash] at hdoubled
    exact ⟨hne, hslash, l₁.length, l₂.length, by omega, by omega, htext⟩
  · rintro ⟨hne, hslash, i, j, hi, hj, htext⟩
    have hdoubled : ¬ ['/', '/'] <:+: p.toList := by
      rw [htext, doubled_around hne hslash]
      omega
    have hempty : ∀ k, ∀ x ∈ List.replicate k ([] : List Char), x = [] := by
      intro k x hx
      exact List.eq_of_mem_replicate hx
    have hjoin := intercalate_around s.toList (hempty i) (hempty j)
    rw [List.length_replicate, List.length_replicate, ← htext] at hjoin
    have hsplit : p.toList.splitOn '/' =
        List.replicate i [] ++ s.toList :: List.replicate j [] := by
      rw [← hjoin]
      refine List.splitOn_intercalate '/' ?_ (by simp)
      intro l hl
      rcases List.mem_append.mp hl with hl | hl
      · simp [hempty i l hl]
      · rcases List.mem_cons.mp hl with rfl | hl
        · exact hslash
        · simp [hempty j l hl]
    have hsegments : segments p = [s] :=
      segments_eq_singleton.mpr ⟨_, _, hsplit, hempty i, hne, hempty j⟩
    simp [docPath, hdoubled, hsegments]

/-- A text without separators is the identifier of a document of the collection. -/
theorem docPath_of_notMem {p : String} (hne : p ≠ "") (hslash : '/' ∉ p.toList) :
    docPath p = some [p] := docPath_eq_singleton.mpr ⟨hne, hslash, Or.inl rfl⟩

/-- A text addresses the document of its segments. -/
theorem segments_of_docPath {p : String} {path : Path} (hpath : docPath p = some path) :
    segments p = path := by
  simp only [docPath, Option.ite_none_left_eq_some, Option.some.injEq] at hpath
  exact hpath.2

/-- The segments of a text as characters. -/
def parts (cs : List Char) : List (List Char) := (cs.splitOn '/').filter (· ≠ [])

/-- A text without the separators at its ends. -/
def bare (p : String) : List Char := (p.toList.dropWhile (· = '/')).rdropWhile (· = '/')

/-- The segments on the two sides of a separator. -/
theorem parts_append (cs ds : List Char) : parts (cs ++ '/' :: ds) = parts cs ++ parts ds := by
  rw [parts, List.splitOn_append_cons_self, List.filter_append]
  rfl

/-- Separators at its ends do not change the segments of a text. -/
theorem parts_bare (p : String) : parts (bare p) = parts p.toList := by
  have hnil : parts [] = [] := by decide
  have hright : ∀ cs : List Char, parts (cs.rdropWhile (· = '/')) = parts cs := by
    intro cs
    induction cs using List.reverseRecOn with
    | nil => rfl
    | append_singleton cs c ih =>
      by_cases hc : c = '/'
      · subst hc
        rw [List.rdropWhile_concat_pos _ _ _ (by simp), ih, parts_append, hnil, List.append_nil]
      · rw [List.rdropWhile_concat_neg _ _ _ (by simpa using hc)]
  have hleft : ∀ cs : List Char, parts (cs.dropWhile (· = '/')) = parts cs := by
    intro cs
    induction cs with
    | nil => rfl
    | cons c cs ih =>
      by_cases hc : c = '/'
      · subst hc
        rw [List.dropWhile_cons_of_pos (by simp), ih]
        exact (parts_append [] cs).symm
      · rw [List.dropWhile_cons_of_neg (by simpa using hc)]
  rw [bare, hright, hleft]

/-- An empty part after the first one comes from a separator at the end or from a doubled
one. -/
theorem end_or_doubled {cs : List Char} (hempty : [] ∈ (cs.splitOn '/').tail) :
    cs.getLast? = some '/' ∨ ['/', '/'] <:+: cs := by
  induction cs with
  | nil => simp at hempty
  | cons c cs ih =>
    have hlift : cs.getLast? = some '/' ∨ ['/', '/'] <:+: cs →
        (c :: cs).getLast? = some '/' ∨ ['/', '/'] <:+: c :: cs := by
      rintro (hlast | hdoubled)
      · exact Or.inl (by simp [List.getLast?_cons, hlast])
      · exact Or.inr (hdoubled.trans (List.suffix_cons _ _).isInfix)
    obtain ⟨y, ys, hsplit⟩ := List.exists_cons_of_ne_nil (List.splitOn_ne_nil '/' cs)
    rw [hsplit] at ih
    rw [List.splitOn_cons_eq_if_modifyHead, hsplit] at hempty
    by_cases hc : c = '/'
    · subst hc
      rw [if_pos (by simp), List.tail_cons] at hempty
      rcases List.mem_cons.mp hempty with rfl | hempty
      · -- the text after the separator is empty or begins with another one
        have hjoin : ['/'].intercalate (cs.splitOn '/') = cs := List.intercalate_splitOn '/'
        rw [hsplit] at hjoin
        cases ys with
        | nil =>
          rw [List.intercalate_singleton] at hjoin
          exact Or.inl (by rw [← hjoin]; rfl)
        | cons z zs =>
          rw [List.intercalate_cons_cons] at hjoin
          rw [← hjoin]
          exact Or.inr ⟨[], ['/'].intercalate (z :: zs), rfl⟩
      · exact hlift (ih hempty)
    · rw [if_neg (by simpa using hc), List.modifyHead_cons, List.tail_cons] at hempty
      exact hlift (ih hempty)

/-- A text without separators at its ends and without a doubled one is the sequence of its
segments. -/
theorem parts_eq_splitOn {cs : List Char} (hne : cs ≠ []) (hhead : cs.head? ≠ some '/')
    (hlast : cs.getLast? ≠ some '/') (hdoubled : ¬ ['/', '/'] <:+: cs) :
    parts cs = cs.splitOn '/' := by
  rw [parts, List.filter_eq_self]
  have htail : [] ∉ (cs.splitOn '/').tail := by
    intro hempty
    rcases end_or_doubled hempty with h | h
    · exact hlast h
    · exact hdoubled h
  obtain ⟨c, cs, rfl⟩ := List.exists_cons_of_ne_nil hne
  have hc : c ≠ '/' := by
    rintro rfl
    exact hhead rfl
  obtain ⟨y, ys, hsplit⟩ := List.exists_cons_of_ne_nil (List.splitOn_ne_nil '/' cs)
  rw [List.splitOn_cons_eq_if_modifyHead, if_neg (by simpa using hc), hsplit,
    List.modifyHead_cons] at htail ⊢
  intro l hl
  rcases List.mem_cons.mp hl with rfl | hl
  · simp
  · rw [decide_eq_true_eq]
    rintro rfl
    exact htail hl

/-- Without the separators at its ends, a text with a segment and without a doubled
separator is the sequence of its segments. -/
theorem parts_bare_eq_splitOn {p : String} (hne : bare p ≠ [])
    (hdoubled : ¬ ['/', '/'] <:+: p.toList) : parts (bare p) = (bare p).splitOn '/' := by
  have hsub : bare p <:+: p.toList :=
    (List.rdropWhile_prefix _ _).isInfix.trans (List.dropWhile_suffix _).isInfix
  refine parts_eq_splitOn hne ?_ ?_ fun h => hdoubled (h.trans hsub)
  · intro hhead
    obtain ⟨rest, hrest⟩ := List.rdropWhile_prefix (· = '/') (p.toList.dropWhile (· = '/'))
    obtain ⟨cs, hcs⟩ := List.head?_eq_some_iff.mp hhead
    have hnot := List.head?_dropWhile_not (· = '/') p.toList
    rw [← hrest, ← bare, hcs] at hnot
    simp at hnot
  · intro hlast
    rw [List.getLast?_eq_some_getLast hne, Option.some.injEq] at hlast
    exact List.rdropWhile_last_not (· = '/') (p.toList.dropWhile (· = '/')) hne
      (decide_eq_true hlast)

/-- A text that addresses a document is the sequence of its segments, up to separators at
its ends. -/
theorem bare_of_docPath {p : String} {path : Path} (hpath : docPath p = some path) :
    (bare p).splitOn '/' = path.map String.toList := by
  simp only [docPath, Option.ite_none_left_eq_some, Option.some.injEq, not_or] at hpath
  obtain ⟨⟨hdoubled, hodd⟩, hsegments⟩ := hpath
  have hparts : path.map String.toList = parts (bare p) := by
    rw [parts_bare, ← hsegments, segments, List.map_map, ← parts]
    simp
  rw [hparts]
  refine (parts_bare_eq_splitOn ?_ hdoubled).symm
  intro hnil
  rw [hnil] at hparts
  have hnone : parts [] = [] := by decide
  rw [hnone, List.map_eq_nil_iff] at hparts
  rw [hsegments, hparts] at hodd
  exact hodd rfl

/-- **The texts of one document.** Two texts that address documents address the same one
exactly if they agree up to separators at their ends. -/
theorem docPath_eq_iff {p q : String} {path path' : Path} (hp : docPath p = some path)
    (hq : docPath q = some path') : path = path' ↔ bare p = bare q := by
  have hmap := bare_of_docPath hp
  have hmap' := bare_of_docPath hq
  constructor
  · rintro rfl
    rw [← hmap'] at hmap
    have hjoin := congrArg (List.intercalate ['/']) hmap
    rwa [List.intercalate_splitOn, List.intercalate_splitOn] at hjoin
  · intro hbare
    rw [hbare, hmap'] at hmap
    exact (List.map_injective_iff.mpr (fun _ _ => String.toList_inj.mp) hmap).symm

/-! ## Texts that end in a plain text -/

/-- A split text has one part more than it has separators. -/
theorem length_splitOn (cs : List Char) : (cs.splitOn '/').length = cs.count '/' + 1 := by
  induction cs with
  | nil => rfl
  | cons c cs ih =>
    rw [List.splitOn_cons_eq_if_modifyHead]
    by_cases hc : c = '/'
    · subst hc
      simp [ih]
    · simp [hc, ih]

/-- A text without separators at the end adds no doubled separator. -/
theorem doubled_append {cs t : List Char} (ht : '/' ∉ t) :
    ['/', '/'] <:+: cs ++ t ↔ ['/', '/'] <:+: cs := by
  induction t using List.reverseRecOn with
  | nil => rw [List.append_nil]
  | append_singleton t x ih =>
    rw [List.mem_append, not_or] at ht
    have hsuffix : ¬ ['/', '/'] <:+ cs ++ t ++ [x] := by
      rintro ⟨l, hl⟩
      have hlast := congrArg List.getLast? hl
      simp only [List.getLast?_append, List.getLast?_singleton] at hlast
      exact ht.2 (by simpa using hlast)
    rw [← List.append_assoc, List.infix_concat_iff, ih ht.1, or_iff_right hsuffix]

/-- Of a text that ends in a plain text, only separators at the front are dropped. -/
theorem bare_append {c t : String} (hne : t ≠ "") (ht : '/' ∉ t.toList) :
    bare (c ++ t) = c.toList.dropWhile (· = '/') ++ t.toList := by
  have hne' : t.toList ≠ [] := by simpa using hne
  have hdrop : t.toList.dropWhile (· = '/') = t.toList := by
    rw [List.dropWhile_eq_self_iff]
    intro hpos hhead
    exact ht (decide_eq_true_eq.mp hhead ▸ List.getElem_mem hpos)
  have hfront : (c ++ t).toList.dropWhile (· = '/') =
      c.toList.dropWhile (· = '/') ++ t.toList := by
    rw [String.toList_append, List.dropWhile_append, hdrop]
    split
    · rename_i hempty
      rw [List.isEmpty_iff.mp hempty, List.nil_append]
    · rfl
  rw [bare, hfront, List.rdropWhile_eq_self_iff]
  intro hnonempty hlast
  rw [List.getLast_append_of_ne_nil hnonempty hne'] at hlast
  exact ht (decide_eq_true_eq.mp hlast ▸ List.getLast_mem hne')

/-- A text that ends in a plain text addresses a document if it has no doubled separator
and, without one at the front, an even number of separators. -/
theorem docPath_append_isSome {c t : String} (hne : t ≠ "") (ht : '/' ∉ t.toList) :
    (docPath (c ++ t)).isSome ↔ ¬ ['/', '/'] <:+: c.toList ∧
      (c.toList.dropWhile (· = '/')).count '/' % 2 = 0 := by
  have hbare := bare_append (c := c) hne ht
  have hnonempty : bare (c ++ t) ≠ [] := by simp [hbare, hne]
  have hiff : ['/', '/'] <:+: (c ++ t).toList ↔ ['/', '/'] <:+: c.toList := by
    rw [String.toList_append]
    exact doubled_append ht
  by_cases hdoubled : ['/', '/'] <:+: (c ++ t).toList
  · rw [docPath, if_pos (Or.inl hdoubled)]
    simp [hiff.mp hdoubled]
  · have hlength : (segments (c ++ t)).length =
        (c.toList.dropWhile (· = '/')).count '/' + 1 := by
      rw [segments, List.length_map, ← parts, ← parts_bare,
        parts_bare_eq_splitOn hnonempty hdoubled, length_splitOn, hbare, List.count_append,
        List.count_eq_zero_of_not_mem ht, Nat.add_zero]
    rw [and_iff_right (mt hiff.mpr hdoubled), docPath, hlength]
    by_cases heven : (c.toList.dropWhile (· = '/')).count '/' % 2 = 0
    · rw [if_neg (by rw [not_or]; exact ⟨hdoubled, by omega⟩)]
      simp [heven]
    · rw [if_pos (Or.inr (by omega))]
      simp [heven]

/-- Every document returned by a query is stored. -/
theorem mem_docs {c : Collection} {d : Doc} :
    d ∈ docs c ↔ ∃ k : Path, k.length = 1 ∧ c.lookup k = some d := by
  simp only [docs, List.mem_map, List.mem_filter, decide_eq_true_eq]
  constructor
  · rintro ⟨⟨k, d'⟩, ⟨hmem, hk⟩, rfl⟩
    exact ⟨k, hk, AList.mem_lookup_iff.mpr hmem⟩
  · rintro ⟨k, hk, hd⟩
    exact ⟨⟨k, d⟩, ⟨AList.mem_lookup_iff.mp hd, hk⟩, rfl⟩

/-- Decoding all documents of a list succeeds if each of them decodes. -/
theorem mapM_isSome {β : Type} {decode : Doc → Option β} {ds : List Doc}
    (hdecode : ∀ d ∈ ds, (decode d).isSome) : (ds.mapM decode).isSome := by
  induction ds with
  | nil => rfl
  | cons d ds ih =>
    obtain ⟨x, hx⟩ := Option.isSome_iff_exists.mp (hdecode d (by simp))
    obtain ⟨xs, hxs⟩ := Option.isSome_iff_exists.mp
      (ih fun d' hd' => hdecode d' (List.mem_cons_of_mem _ hd'))
    simp [List.mapM_cons, hx, hxs]

/-- Every record of a decoded list comes from one of its documents. -/
theorem mem_of_mapM {α : Type} {decode : Doc → Option α} {ds : List Doc} {rs : List α} {r : α}
    (hrs : ds.mapM decode = some rs) (hr : r ∈ rs) : ∃ d ∈ ds, decode d = some r := by
  induction ds generalizing rs with
  | nil =>
    cases hrs
    cases hr
  | cons d ds ih =>
    simp only [List.mapM_cons, Option.bind_eq_bind, Option.bind_eq_some_iff, Option.pure_def,
      Option.some.injEq] at hrs
    obtain ⟨r', hd, rs', hrest, rfl⟩ := hrs
    rcases List.mem_cons.mp hr with rfl | hr
    · exact ⟨d, List.mem_cons_self, hd⟩
    · obtain ⟨d', hd', hdecode⟩ := ih hrest hr
      exact ⟨d', List.mem_cons_of_mem _ hd', hdecode⟩

/-- Decoding the elements of a list, each of which has a key that its record has too,
yields records with exactly these keys, in the order of the list. -/
theorem mapM_keys {γ α K : Type} (decode : γ → Option α) (key : α → K) (key' : γ → K) (xs : List γ)
    (hdecode : ∀ x ∈ xs, ∃ r, decode x = some r ∧ key r = key' x) :
    ∃ rs, xs.mapM decode = some rs ∧ rs.map key = xs.map key' ∧
      ∀ r, r ∈ rs ↔ ∃ x ∈ xs, decode x = some r := by
  induction xs with
  | nil => exact ⟨[], rfl, rfl, by simp⟩
  | cons x xs ih =>
    obtain ⟨r, hr, hkey⟩ := hdecode x List.mem_cons_self
    obtain ⟨rs, hrs, hkeys, hmem⟩ := ih fun x' hx' => hdecode x' (List.mem_cons_of_mem _ hx')
    refine ⟨r :: rs, by simp [List.mapM_cons, hr, hrs], by simp [hkey, hkeys], ?_⟩
    intro r'
    simp [hmem, hr, eq_comm]

/-- Decoding documents whose identifiers are determined by what they decode to yields
records with exactly these identifiers, in the order of the documents. -/
theorem mapM_entries {α K : Type} (decode : Doc → Option α) (key : α → K)
    (es : List (Sigma fun _ : K => Doc))
    (hdecode : ∀ e ∈ es, ∃ r, decode e.2 = some r ∧ key r = e.1) :
    ∃ rs, (es.map Sigma.snd).mapM decode = some rs ∧ rs.map key = es.map Sigma.fst ∧
      ∀ r, r ∈ rs ↔ ∃ e ∈ es, decode e.2 = some r := by
  rw [List.mapM_map]
  exact mapM_keys (fun e => decode e.2) key Sigma.fst es hdecode

/-- Selecting documents and decoding them in one way yields what is selected and changed
among the records that another way of decoding yields. -/
theorem mapM_filter {α β : Type} {decode : Doc → Option α} {decode' : Doc → Option β}
    {p : Doc → Bool} {q : α → Bool} {f : α → β} {ds : List Doc} {rs : List α}
    (hrs : ds.mapM decode = some rs)
    (hdecode : ∀ d ∈ ds, ∀ r, decode d = some r → decode' d = some (f r) ∧ p d = q r) :
    (ds.filter p).mapM decode' = some ((rs.filter q).map f) := by
  induction ds generalizing rs with
  | nil =>
    cases hrs
    rfl
  | cons d ds ih =>
    simp only [List.mapM_cons, Option.bind_eq_bind, Option.bind_eq_some_iff, Option.pure_def,
      Option.some.injEq] at hrs
    obtain ⟨r, hr, rs, hrest, rfl⟩ := hrs
    obtain ⟨hd, hselect⟩ := hdecode d List.mem_cons_self r hr
    have hih := ih hrest fun d' hd' => hdecode d' (List.mem_cons_of_mem _ hd')
    rw [List.filter_cons, List.filter_cons, hselect]
    cases q r with
    | false => simpa using hih
    | true => simp [List.mapM_cons, hd, hih]

end Firestore
