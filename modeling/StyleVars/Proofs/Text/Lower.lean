import StyleVars.Proofs.Text.Utf8
import StyleVars.Text.Lower

namespace StyleVars.Text

def kelvin : Char := '\u212A'

def lowerAscii (c : Char) : Char := if c = kelvin then 'k' else c.toLower

def capitals : LowerRun := ⟨0x41, 0x5A, 1, 0x61⟩

/-- The characters with a lower-case form in ASCII. -/
def LowersToAscii (c : Char) : Prop := c.toNat < 128 ∨ c = kelvin

instance (c : Char) : Decidable (LowersToAscii c) := inferInstanceAs (Decidable (_ ∨ _))

variable {c : Char} {before after t : Text}

theorem forall_ascii {P : Char → Prop} (h : ∀ n, n < 128 → P (Char.ofNat n))
    (hc : c.toNat < 128) : P c :=
  Char.ofNat_toNat c ▸ h c.toNat hc

theorem lowerAscii_of_ascii (h : c.toNat < 128) : lowerAscii c = c.toLower := by
  refine if_neg fun heq => ?_
  subst heq
  exact absurd h (by decide)

theorem lowerAscii_lt_iff : (lowerAscii c).toNat < 128 ↔ LowersToAscii c := by
  constructor
  · intro h
    by_cases hkelvin : c = kelvin
    · exact Or.inr hkelvin
    · rw [lowerAscii, if_neg hkelvin] at h
      by_cases hupper : c.val ≥ 'A'.val ∧ c.val ≤ 'Z'.val
      · have hle := UInt32.le_iff_toNat_le.1 hupper.2
        exact Or.inl (Nat.lt_of_le_of_lt hle (by decide))
      · have hlower : c.toLower = c := dif_neg hupper
        exact Or.inl (hlower ▸ h)
  · rintro (h | rfl)
    · exact forall_ascii (P := fun c => (lowerAscii c).toNat < 128) (by decide +kernel) h
    · decide

theorem lowerOne_of_ascii (h : c.toNat < 128) :
    lowerOne c = if capitals.has c.toNat then Char.ofNat (capitals.apply c.toNat) else c := by
  have hruns : lowerRuns = capitals :: lowerRuns.tail := rfl
  -- Only the first run begins in ASCII.
  have hrest : ∀ run ∈ lowerRuns.tail, 128 ≤ run.first := by decide +kernel
  have hnone : lowerRuns.tail.find? (·.has c.toNat) = none := by
    rw [List.find?_eq_none]
    intro run hrun hhas
    simp only [LowerRun.has, Bool.and_eq_true, decide_eq_true_eq] at hhas
    have hfirst := hrest run hrun
    omega
  rw [lowerOne, hruns, List.find?_cons, hnone]
  cases capitals.has c.toNat <;> rfl

theorem lowerOne_eq (h : LowersToAscii c) : lowerOne c = lowerAscii c := by
  obtain h | rfl := h
  · rw [lowerOne_of_ascii h]
    exact forall_ascii (P := fun c => (if capitals.has c.toNat then
      Char.ofNat (capitals.apply c.toNat) else c) = lowerAscii c) (by decide +kernel) h
  · decide +kernel

/-- The lower-case letters of a run are characters, and a run with ASCII letters among them either
begins in ASCII itself or is that of the Kelvin sign. -/
theorem lowerRuns_spec : ∀ run ∈ lowerRuns,
    (run.last < 128 ∨ run.first = kelvin.toNat ∧ run.last = kelvin.toNat ∨ 128 ≤ run.lower) ∧
    (run.lower + (run.last - run.first) < 0xD800 ∨
      0xDFFF < run.lower ∧ run.lower + (run.last - run.first) < 0x110000) := by
  decide +kernel

theorem lowersToAscii_of_lowerOne (h : (lowerOne c).toNat < 128) : LowersToAscii c := by
  unfold lowerOne at h
  split at h
  case h_1 run hrun =>
    have hhas := List.find?_some hrun
    simp only [LowerRun.has, Bool.and_eq_true, decide_eq_true_eq] at hhas
    obtain ⟨⟨hfirst, hlast⟩, -⟩ := hhas
    obtain ⟨hascii, hvalid⟩ := lowerRuns_spec run (List.mem_of_find?_eq_some hrun)
    rw [LowerRun.apply, Utf8.toNat_ofNat (by omega)] at h
    obtain hascii | ⟨hfirst', hlast'⟩ | hlower := hascii
    · exact Or.inl (by omega)
    · exact Or.inr (Char.toNat_inj.1 (by omega))
    · omega
  case h_2 => exact Or.inl h

theorem lowerAt_of_lowersToAscii (h : LowersToAscii c) :
    lowerAt before c after = [lowerAscii c] := by
  have hsigma : c ≠ 'Σ' := by
    rintro rfl
    exact absurd h (by decide)
  have hdotted : c ≠ 'İ' := by
    rintro rfl
    exact absurd h (by decide)
  rw [lowerAt, if_neg hsigma, if_neg hdotted, lowerOne_eq h]

theorem lowersToAscii_of_lowerAt (h : ∀ d ∈ lowerAt before c after, d.toNat < 128) :
    LowersToAscii c := by
  unfold lowerAt at h
  split at h
  case isTrue =>
    -- Both letters that a capital sigma can become are Greek.
    have hd := h _ (List.mem_singleton_self _)
    split at hd <;> exact absurd hd (by decide)
  case isFalse =>
    split at h
    case isTrue => exact absurd (h '\u0307' (by simp)) (by decide)
    case isFalse => exact lowersToAscii_of_lowerOne (h _ (List.mem_singleton_self _))

theorem lowerFrom_eq_map (h : ∀ c ∈ t, LowersToAscii c) (before : Text) :
    lowerFrom before t = t.map lowerAscii := by
  induction t generalizing before with
  | nil => rfl
  | cons c t ih =>
    rw [lowerFrom, lowerAt_of_lowersToAscii (h c List.mem_cons_self),
      ih (fun d hd => h d (List.mem_cons_of_mem c hd))]
    rfl

theorem lower_eq_map (h : ∀ c ∈ t, LowersToAscii c) : t.lower = t.map lowerAscii :=
  lowerFrom_eq_map h []

theorem lowersToAscii_of_lowerFrom (h : ∀ d ∈ lowerFrom before t, d.toNat < 128) :
    ∀ c ∈ t, LowersToAscii c := by
  induction t generalizing before with
  | nil => nofun
  | cons c t ih =>
    rw [lowerFrom, List.forall_mem_append] at h
    exact List.forall_mem_cons.2 ⟨lowersToAscii_of_lowerAt h.1, ih h.2⟩

theorem lower_ascii_iff : (∀ d ∈ t.lower, d.toNat < 128) ↔ ∀ c ∈ t, LowersToAscii c := by
  constructor
  · exact lowersToAscii_of_lowerFrom
  · intro h
    rw [lower_eq_map h]
    exact List.forall_mem_map.2 fun c hc => lowerAscii_lt_iff.2 (h c hc)

end StyleVars.Text
