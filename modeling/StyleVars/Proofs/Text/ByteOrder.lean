import StyleVars.Proofs.Text.Utf8
import StyleVars.Text.Order

namespace StyleVars.Text

variable {a b : Char} {m n : Nat} {s t : Text} {xs ys : Bytes}

theorem ofNat_cons_lt (hm : m < 256) (hn : n < 256) (hle : m ≤ n) (h : m = n → xs < ys) :
    UInt8.ofNat m :: xs < UInt8.ofNat n :: ys := by
  rw [List.cons_lt_cons_iff]
  obtain hlt | rfl := Nat.lt_or_eq_of_le hle
  · apply Or.inl
    rwa [UInt8.lt_iff_toNat_lt, UInt8.toNat_ofNat', UInt8.toNat_ofNat', Nat.mod_eq_of_lt hm,
      Nat.mod_eq_of_lt hn]
  · exact Or.inr ⟨rfl, h rfl⟩

/-- The first byte tells how many there are, and larger code points have no fewer. Of equally many
bytes the first ones hold the higher bits. -/
theorem encodeChar_lt (h : a.toNat < b.toNat) (xs ys : Bytes) :
    String.utf8EncodeChar a ++ xs < String.utf8EncodeChar b ++ ys := by
  have ha := Utf8.toNat_valid a
  have hb := Utf8.toNat_valid b
  rw [Utf8.encodeChar_eq rfl, Utf8.encodeChar_eq rfl]
  generalize a.toNat = m at *
  generalize b.toNat = n at *
  -- Byte by byte, until two of them cannot be equal.
  split_ifs <;> simp only [List.cons_append, List.nil_append] <;>
    repeat first
      | omega
      | refine ofNat_cons_lt (by omega) (by omega) (by omega) fun _ => ?_

theorem encode_lt_of_precedes (h : s.precedes t = true) : Utf8.encode s < Utf8.encode t := by
  induction s generalizing t with
  | nil =>
    cases t with
    | nil => simp at h
    | cons b t =>
      obtain ⟨x, xs, hx⟩ := List.exists_cons_of_ne_nil (String.utf8EncodeChar_ne_nil (c := b))
      simp only [Utf8.encode, List.flatMap_cons, hx]
      exact List.nil_lt_cons x _
  | cons a s ih =>
    cases t with
    | nil => simp at h
    | cons b t =>
      simp only [Utf8.encode, List.flatMap_cons]
      obtain hab | ⟨rfl, hst⟩ := cons_precedes_cons.1 h
      · exact encodeChar_lt hab _ _
      · exact List.append_left_lt (ih hst)

theorem precedes_iff_encode_lt : s.precedes t = true ↔ Utf8.encode s < Utf8.encode t := by
  refine ⟨encode_lt_of_precedes, fun hlt => ?_⟩
  by_cases hst : s.precedes t = true
  · exact hst
  · by_cases heq : s = t
    · exact absurd (heq ▸ hlt) (List.lt_irrefl _)
    · have hts : t.precedes s = true := precedes_of_ne (Bool.eq_false_iff.2 hst) (Ne.symm heq)
      exact absurd hlt (List.lt_asymm (encode_lt_of_precedes hts))

end StyleVars.Text
