import Mathlib.Data.List.TakeWhile
import StyleVars.Text.Lower

namespace StyleVars.Text

variable {before before' after after' t x y : Text}

/-- Between these two texts a capital sigma ends a word: a cased letter stands before it and none
behind it, where case-ignorable characters do not count. -/
def EndsWord (before after : Text) : Prop :=
  beginsCased before.reverse = true ∧ beginsCased after = false

theorem beginsCased_of_all (h : x.all isCaseIgnorable = true) : beginsCased x = false := by
  have hdrop : x.dropWhile isCaseIgnorable = [] := List.dropWhile_eq_nil_iff.2 (List.all_eq_true.1 h)
  simp only [beginsCased, hdrop]

theorem beginsCased_append_of_all (h : x.all isCaseIgnorable = true) (y : Text) :
    beginsCased (x ++ y) = beginsCased y := by
  simp only [beginsCased, List.dropWhile_append_of_pos (List.all_eq_true.1 h)]

theorem beginsCased_append_of_not_all (h : x.all isCaseIgnorable = false) (y : Text) :
    beginsCased (x ++ y) = beginsCased x := by
  induction x with
  | nil => simp at h
  | cons c x ih =>
    by_cases hc : isCaseIgnorable c = true
    · have hx : x.all isCaseIgnorable = false := by simpa [hc] using h
      have hrest := ih hx
      simpa only [beginsCased, List.cons_append, List.dropWhile_cons_of_pos hc] using hrest
    · simp only [beginsCased, List.cons_append, List.dropWhile_cons_of_neg hc]

theorem not_all_of_sigma_mem (h : 'Σ' ∈ x) : x.all isCaseIgnorable = false := by
  apply List.all_eq_false.2
  exact ⟨'Σ', h, by decide +kernel⟩

theorem sigma_notMem_of_all (h : x.all isCaseIgnorable = true) : 'Σ' ∉ x := by
  intro hmem
  rw [not_all_of_sigma_mem hmem] at h
  cases h

theorem beginsCased_append_sigma (x y : Text) :
    beginsCased (x ++ 'Σ' :: y) = beginsCased (x ++ ['Σ']) := by
  have hall : (x ++ ['Σ']).all isCaseIgnorable = false := not_all_of_sigma_mem (by simp)
  rw [← beginsCased_append_of_not_all hall y, List.append_assoc, List.singleton_append]

/-- A text with `x` before and `y` behind a capital sigma leaves the letter of the sigma open: it
ends a word or not, as what stands around the text will have it. -/
def Loose (x y : Text) : Prop :=
  x.all isCaseIgnorable = true ∧ beginsCased y = false ∨
    y.all isCaseIgnorable = true ∧ beginsCased x.reverse = true

instance (x y : Text) : Decidable (Loose x y) := inferInstanceAs (Decidable (_ ∨ _))

theorem endsWord_iff_of_not_loose (h : ¬ Loose x y) (before after : Text) :
    EndsWord (before ++ x) (y ++ after) ↔ EndsWord x y := by
  simp only [Loose, not_or, not_and, Bool.not_eq_false, Bool.not_eq_true] at h
  obtain ⟨hfront, hback⟩ := h
  rw [EndsWord, EndsWord, List.reverse_append]
  by_cases hx : x.all isCaseIgnorable = true
  · -- A cased letter follows in the text, so that the sigma ends no word.
    have hy : beginsCased y = true := hfront hx
    have hall : y.all isCaseIgnorable = false := by
      apply Bool.eq_false_iff.2
      intro hall
      simp [beginsCased_of_all hall] at hy
    rw [beginsCased_append_of_not_all hall, hy]
    simp
  · have hrev : x.reverse.all isCaseIgnorable = false := by simpa using hx
    rw [beginsCased_append_of_not_all hrev]
    by_cases hy : y.all isCaseIgnorable = true
    · simp [hback hy]
    · rw [beginsCased_append_of_not_all (Bool.eq_false_iff.2 hy)]

/-- What `t` is lower-cased to between `before`, which is read backwards, and `after`. -/
def lowerBetween (before : Text) : Text → Text → Text
  | [], _ => []
  | c :: rest, after => lowerAt before c (rest ++ after) ++ lowerBetween (c :: before) rest after

theorem lowerFrom_eq (before t : Text) : lowerFrom before t = lowerBetween before t [] := by
  induction t generalizing before with
  | nil => rfl
  | cons c t ih => rw [lowerFrom, lowerBetween, List.append_nil, ih]

theorem lowerBetween_append (before x y after : Text) :
    lowerBetween before (x ++ y) after =
      lowerBetween before x (y ++ after) ++ lowerBetween (x.reverse ++ before) y after := by
  induction x generalizing before with
  | nil => rfl
  | cons c x ih =>
    simp only [List.cons_append, lowerBetween, ih, List.append_assoc, List.reverse_cons,
      List.nil_append]

theorem lowerAt_congr {c : Char}
    (h : c = 'Σ' → (EndsWord before.reverse after ↔ EndsWord before'.reverse after')) :
    lowerAt before c after = lowerAt before' c after' := by
  by_cases hc : c = 'Σ'
  · have hends := h hc
    simp only [EndsWord, List.reverse_reverse] at hends
    have hiff : (beginsCased before && !beginsCased after) =
        (beginsCased before' && !beginsCased after') := by
      rw [Bool.eq_iff_iff]
      simpa using hends
    simp only [lowerAt, if_pos hc, hiff]
  · simp only [lowerAt, if_neg hc]

theorem lowerBetween_congr
    (h : ∀ x y, t = x ++ 'Σ' :: y →
      (EndsWord (before.reverse ++ x) (y ++ after) ↔
        EndsWord (before'.reverse ++ x) (y ++ after'))) :
    lowerBetween before t after = lowerBetween before' t after' := by
  induction t generalizing before before' with
  | nil => rfl
  | cons c t ih =>
    have hfirst : lowerAt before c (t ++ after) = lowerAt before' c (t ++ after') := by
      apply lowerAt_congr
      rintro rfl
      simpa using h [] t rfl
    have hrest : lowerBetween (c :: before) t after = lowerBetween (c :: before') t after' := by
      apply ih
      intro x y hxy
      have hcons := h (c :: x) y (by rw [hxy, List.cons_append])
      simpa using hcons
    rw [lowerBetween, lowerBetween, hfirst, hrest]

theorem lower_append (before t after : Text) :
    (before ++ t ++ after).lower =
      lowerBetween [] before (t ++ after) ++ lowerBetween before.reverse t after ++
        lowerBetween (before ++ t).reverse after [] := by
  simp only [lower, lowerFrom_eq, lowerBetween_append, List.append_nil, List.append_assoc,
    List.reverse_append]

theorem lower_infix_lower
    (h : ∀ x y, t = x ++ 'Σ' :: y → (EndsWord (before ++ x) (y ++ after) ↔ EndsWord x y)) :
    t.lower <:+: (before ++ t ++ after).lower := by
  have hpart : lowerBetween before.reverse t after = lowerBetween [] t [] := by
    apply lowerBetween_congr
    intro x y hxy
    simpa using h x y hxy
  rw [lower_append, hpart, lower, lowerFrom_eq]
  exact ⟨_, _, rfl⟩

theorem lowerAt_sigma_of_endsWord (h : EndsWord before after) :
    lowerAt before.reverse 'Σ' after = ['ς'] := by
  simp [lowerAt, h.1, h.2]

theorem lowerAt_sigma_of_not_endsWord (h : ¬ EndsWord before after) :
    lowerAt before.reverse 'Σ' after = ['σ'] := by
  have hletter : (beginsCased before.reverse && !beginsCased after) = false := by
    simpa [EndsWord] using h
  simp [lowerAt, hletter]

theorem lowerBetween_of_sigma_notMem (h : 'Σ' ∉ t) (before before' after after' : Text) :
    lowerBetween before t after = lowerBetween before' t after' := by
  apply lowerBetween_congr
  rintro x y rfl
  simp at h

theorem lower_sigma (x y : Text) :
    (x ++ 'Σ' :: y).lower =
      lowerBetween [] x ['Σ'] ++ (lowerAt x.reverse 'Σ' y ++ lowerBetween ['Σ'] y []) := by
  -- A sigma is a cased letter itself, so nothing on its other side counts.
  have hleft : lowerBetween [] x ('Σ' :: y) = lowerBetween [] x ['Σ'] := by
    apply lowerBetween_congr
    intro p q _
    rw [EndsWord, EndsWord, beginsCased_append_sigma]
  have hright : lowerBetween ('Σ' :: x.reverse) y [] = lowerBetween ['Σ'] y [] := by
    apply lowerBetween_congr
    intro p q _
    simp only [EndsWord, List.reverse_append, List.reverse_reverse,
      beginsCased_append_sigma p.reverse x.reverse]
  rw [lower, lowerFrom_eq, lowerBetween_append, List.append_nil, hleft]
  simp only [lowerBetween, List.append_nil, hright]

theorem not_infix_behind_letter (hx : x.all isCaseIgnorable = true) (hy : beginsCased y = false) :
    ¬ lower (x ++ 'Σ' :: y) <:+: lower ('a' :: x ++ 'Σ' :: y) := by
  have hterm : ¬ EndsWord x y := by
    rintro ⟨hcased, -⟩
    rw [beginsCased_of_all (by simpa using hx)] at hcased
    cases hcased
  have hname : EndsWord ('a' :: x) y := by
    refine ⟨?_, hy⟩
    rw [List.reverse_cons, beginsCased_append_of_all (by simpa using hx)]
    decide +kernel
  have hsigma : 'Σ' ∉ x := sigma_notMem_of_all hx
  have hfront : lowerBetween [] ('a' :: x) ['Σ'] = 'a' :: lowerBetween [] x ['Σ'] := by
    rw [lowerBetween, lowerBetween_of_sigma_notMem hsigma _ [] _ ['Σ']]
    rfl
  intro hpart
  -- The sigma ends a word behind the new letter, which leaves one small sigma less.
  have hcount := hpart.sublist.count_le 'σ'
  rw [lower_sigma, lower_sigma, lowerAt_sigma_of_not_endsWord hterm,
    lowerAt_sigma_of_endsWord hname, hfront] at hcount
  simp only [List.count_append, List.count_cons, List.count_nil, beq_iff_eq, Char.reduceEq,
    if_true, if_false] at hcount
  omega

theorem not_infix_before_letter (hy : y.all isCaseIgnorable = true)
    (hx : beginsCased x.reverse = true) :
    ¬ lower (x ++ 'Σ' :: y) <:+: lower (x ++ 'Σ' :: (y ++ ['a'])) := by
  have hterm : EndsWord x y := ⟨hx, beginsCased_of_all hy⟩
  have hname : ¬ EndsWord x (y ++ ['a']) := by
    rintro ⟨-, hcased⟩
    rw [beginsCased_append_of_all hy] at hcased
    exact absurd hcased (by decide +kernel)
  have hsigma : 'Σ' ∉ y := sigma_notMem_of_all hy
  have hback : lowerBetween ['Σ'] (y ++ ['a']) [] = lowerBetween ['Σ'] y [] ++ ['a'] := by
    rw [lowerBetween_append, lowerBetween_of_sigma_notMem hsigma _ ['Σ'] _ []]
    rfl
  intro hpart
  -- The sigma ends no word any more, which leaves one final sigma less.
  have hcount := hpart.sublist.count_le 'ς'
  rw [lower_sigma, lower_sigma, lowerAt_sigma_of_endsWord hterm,
    lowerAt_sigma_of_not_endsWord hname, hback] at hcount
  simp only [List.count_append, List.count_cons, List.count_nil, beq_iff_eq, Char.reduceEq,
    if_true, if_false] at hcount
  omega

theorem exists_not_infix_of_loose (h : Loose x y) :
    ∃ name : Text, x ++ 'Σ' :: y <:+: name ∧ ¬ lower (x ++ 'Σ' :: y) <:+: name.lower := by
  obtain ⟨hx, hy⟩ | ⟨hy, hx⟩ := h
  · refine ⟨'a' :: x ++ 'Σ' :: y, ?_, not_infix_behind_letter hx hy⟩
    exact ⟨['a'], [], List.append_nil _⟩
  · refine ⟨x ++ 'Σ' :: (y ++ ['a']), ?_, not_infix_before_letter hy hx⟩
    exact ⟨[], ['a'], by simp⟩

end StyleVars.Text
