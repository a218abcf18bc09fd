import Mathlib.Data.List.Induction
import Mathlib.Data.List.TakeWhile
import Mathlib.Data.Nat.Digits.Defs
import StyleVars.Text.Blank
import StyleVars.Text.Decimal

namespace StyleVars

variable {t core before after digits : Text} {bound n : Nat}

namespace Decimal

/-- The number that digits spell, by the places that they stand at. -/
def value (digits : Text) : Nat :=
  Nat.ofDigits 10 (digits.reverse.map fun c => c.toNat - '0'.toNat)

theorem ofDigitChars_eq_value (digits : Text) : Nat.ofDigitChars 10 digits 0 = value digits := by
  induction digits using List.reverseRecOn with
  | nil => rfl
  | append_singleton digits c ih =>
    have hlast : value (digits ++ [c]) = c.toNat - '0'.toNat + 10 * value digits := by
      simp [value, Nat.ofDigits_cons]
    rw [hlast, ← ih, Nat.ofDigitChars_append, Nat.ofDigitChars_cons, Nat.ofDigitChars_nil,
      Nat.add_comm]

/-- Digits, perhaps with a plus sign in front, that spell the number. -/
def Spells (t : Text) (n : Nat) : Prop :=
  ∃ sign digits, t = sign ++ digits ∧ (sign = [] ∨ sign = ['+']) ∧ digits ≠ [] ∧
    (∀ c ∈ digits, isDigit c = true) ∧ value digits = n

theorem unsigned_of_digits (h : ∀ c ∈ digits, isDigit c = true) : unsigned digits = digits := by
  unfold unsigned
  split
  case h_1 rest => exact absurd (h '+' List.mem_cons_self) (by decide)
  case h_2 => rfl

theorem spells_iff : Spells t n ↔
    unsigned t ≠ [] ∧ (∀ c ∈ unsigned t, isDigit c = true) ∧ value (unsigned t) = n := by
  constructor
  · rintro ⟨sign, digits, rfl, rfl | rfl, hne, hdigits, hvalue⟩
    · rw [List.nil_append, unsigned_of_digits hdigits]
      exact ⟨hne, hdigits, hvalue⟩
    · exact ⟨hne, hdigits, hvalue⟩
  · rintro ⟨hne, hdigits, hvalue⟩
    by_cases hplus : ∃ rest, t = '+' :: rest
    · obtain ⟨rest, rfl⟩ := hplus
      exact ⟨['+'], rest, rfl, Or.inr rfl, hne, hdigits, hvalue⟩
    · have hunsigned : unsigned t = t := by
        unfold unsigned
        split
        case h_1 rest => exact absurd ⟨rest, rfl⟩ hplus
        case h_2 => rfl
      rw [hunsigned] at hne hdigits hvalue
      exact ⟨[], t, rfl, Or.inl rfl, hne, hdigits, hvalue⟩

theorem read?_eq_some_iff : read? bound t = some n ↔ Spells t n ∧ n ≤ bound := by
  rw [spells_iff, read?, ofDigitChars_eq_value]
  simp only [List.all_eq_true]
  by_cases hdigits : unsigned t ≠ [] ∧ ∀ c ∈ unsigned t, isDigit c = true
  · rw [if_pos hdigits]
    by_cases hbound : value (unsigned t) ≤ bound
    · simp only [if_pos hbound, Option.some.injEq]
      constructor
      · rintro rfl
        exact ⟨⟨hdigits.1, hdigits.2, rfl⟩, hbound⟩
      · exact fun h => h.1.2.2
    · simp only [if_neg hbound]
      refine iff_of_false nofun ?_
      rintro ⟨⟨-, -, rfl⟩, h⟩
      exact hbound h
  · rw [if_neg hdigits]
    exact iff_of_false nofun fun h => hdigits ⟨h.1.1, h.1.2.1⟩

theorem spells_write (n : Nat) : Spells (write n) n := by
  refine ⟨[], write n, rfl, Or.inl rfl, Nat.toDigits_ne_nil, fun c hc => ?_, ?_⟩
  · have hdigit : c.isDigit = true := Nat.isDigit_of_mem_toDigits (by decide) (by decide) hc
    exact hdigit
  · rw [← ofDigitChars_eq_value, write, Nat.ofDigitChars_toDigits (by decide) (by decide)]

end Decimal

namespace Text

theorem exists_trim (t : Text) : ∃ before after, t = before ++ t.trim ++ after ∧
    (∀ c ∈ before, isBlank c = true) ∧ ∀ c ∈ after, isBlank c = true := by
  refine ⟨t.takeWhile isBlank, ((t.dropWhile isBlank).reverse.takeWhile isBlank).reverse, ?_, ?_, ?_⟩
  · rw [trim, List.append_assoc, ← List.reverse_append, List.takeWhile_append_dropWhile,
      List.reverse_reverse, List.takeWhile_append_dropWhile]
  · exact fun c hc => List.mem_takeWhile_imp hc
  · exact fun c hc => List.mem_takeWhile_imp (List.mem_reverse.1 hc)

theorem dropWhile_blanks (h : ∀ c ∈ t, isBlank c = false) : t.dropWhile isBlank = t := by
  cases t with
  | nil => rfl
  | cons c t =>
    have hc : isBlank c = false := h c List.mem_cons_self
    exact List.dropWhile_cons_of_neg (by simp [hc])

theorem trim_append (hbefore : ∀ c ∈ before, isBlank c = true)
    (hafter : ∀ c ∈ after, isBlank c = true) (hcore : ∀ c ∈ core, isBlank c = false) :
    trim (before ++ core ++ after) = core := by
  cases core with
  | nil =>
    have hall : ∀ c ∈ before ++ [] ++ after, isBlank c = true := by
      simp only [List.append_nil, List.forall_mem_append]
      exact ⟨hbefore, hafter⟩
    rw [trim, List.dropWhile_eq_nil_iff.2 hall]
    rfl
  | cons c core =>
    have hc : isBlank c = false := hcore c List.mem_cons_self
    have hfront : (before ++ (c :: core) ++ after).dropWhile isBlank = c :: core ++ after := by
      rw [List.append_assoc, List.dropWhile_append_of_pos hbefore]
      exact List.dropWhile_cons_of_neg (by simp [hc])
    rw [trim, hfront, List.reverse_append, List.dropWhile_append_of_pos (by simpa using hafter),
      dropWhile_blanks fun c hc => hcore c (List.mem_reverse.1 hc), List.reverse_reverse]

end Text

end StyleVars
