import StyleVars.Text.Basic

namespace StyleVars.Text

def precedes : Text → Text → Bool
  | _, [] => false
  | [], _ :: _ => true
  | a :: s, b :: t => a.toNat < b.toNat || (a == b && precedes s t)

@[simp] theorem precedes_nil (s : Text) : precedes s [] = false := by
  cases s <;> rfl

@[simp] theorem nil_precedes_cons (b : Char) (t : Text) : precedes [] (b :: t) = true := rfl

theorem cons_precedes_cons {a b : Char} {s t : Text} :
    precedes (a :: s) (b :: t) = true ↔
      a.toNat < b.toNat ∨ (a = b ∧ precedes s t = true) := by
  simp [precedes]

theorem precedes_irrefl (s : Text) : precedes s s = false := by
  induction s with
  | nil => rfl
  | cons a s ih => simp [precedes, ih]

theorem precedes_trans {s t u : Text} (hst : precedes s t = true) (htu : precedes t u = true) :
    precedes s u = true := by
  induction s generalizing t u with
  | nil =>
    cases t with
    | nil => simp at hst
    | cons b t => cases u <;> simp_all
  | cons a s ih =>
    cases t with
    | nil => simp at hst
    | cons b t =>
      cases u with
      | nil => simp at htu
      | cons c u =>
        rw [cons_precedes_cons] at hst htu ⊢
        rcases hst with hab | ⟨rfl, hst⟩
        · rcases htu with hbc | ⟨rfl, -⟩
          · exact Or.inl (Nat.lt_trans hab hbc)
          · exact Or.inl hab
        · rcases htu with hac | ⟨rfl, htu⟩
          · exact Or.inl hac
          · exact Or.inr ⟨rfl, ih hst htu⟩

theorem eq_of_not_precedes {s t : Text} (hst : precedes s t = false) (hts : precedes t s = false) :
    s = t := by
  induction s generalizing t with
  | nil =>
    cases t with
    | nil => rfl
    | cons b t => simp at hst
  | cons a s ih =>
    cases t with
    | nil => simp at hts
    | cons b t =>
      simp only [precedes, Bool.or_eq_false_iff, decide_eq_false_iff_not,
        Bool.and_eq_false_imp, beq_iff_eq] at hst hts
      have hab : a = b := by
        apply Char.ext
        apply UInt32.toNat_inj.1
        exact Nat.le_antisymm (Nat.not_lt.1 hts.1) (Nat.not_lt.1 hst.1)
      subst hab
      exact congrArg (a :: ·) (ih (hst.2 rfl) (hts.2 rfl))

theorem not_precedes_of_precedes {s t : Text} (h : precedes s t = true) : precedes t s = false := by
  cases hts : precedes t s with
  | false => rfl
  | true => exact absurd (precedes_trans h hts) (by simp [precedes_irrefl])

theorem precedes_of_ne {s t : Text} (h : precedes t s = false) (hne : s ≠ t) :
    precedes s t = true := by
  cases hst : precedes s t with
  | true => rfl
  | false => exact absurd (eq_of_not_precedes hst h) hne

theorem precedes_of_precedes_of_not {s t u : Text} (hst : precedes s t = true)
    (hut : precedes u t = false) : precedes s u = true := by
  by_cases htu : t = u
  · exact htu ▸ hst
  · exact precedes_trans hst (precedes_of_ne hut htu)

end StyleVars.Text
