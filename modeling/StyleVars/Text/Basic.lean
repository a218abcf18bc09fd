namespace StyleVars

abbrev Text := List Char

abbrev Bytes := List UInt8

namespace Text

def byteSize : Text → Nat
  | [] => 0
  | c :: r => c.utf8Size + byteSize r

/-- The text before and after a byte offset. There is none when the offset falls inside a character
or behind the end. -/
def splitAtByte? : Nat → Text → Option (Text × Text)
  | 0, t => some ([], t)
  | _ + 1, [] => none
  | n + 1, c :: r =>
    if c.utf8Size ≤ n + 1 then
      (splitAtByte? (n + 1 - c.utf8Size) r).map fun (a, b) => (c :: a, b)
    else none

def isBoundary (t : Text) (offset : Nat) : Bool := (t.splitAtByte? offset).isSome

def occursIn (part : Text) : Text → Bool
  | [] => part.isEmpty
  | c :: r => part.isPrefixOf (c :: r) || occursIn part r

@[simp] theorem byteSize_nil : byteSize [] = 0 := rfl

@[simp] theorem byteSize_cons (c : Char) (t : Text) :
    byteSize (c :: t) = c.utf8Size + byteSize t := rfl

@[simp] theorem byteSize_append (s t : Text) : byteSize (s ++ t) = byteSize s + byteSize t := by
  induction s with
  | nil => simp
  | cons c s ih => simp [ih, Nat.add_assoc]

theorem splitAtByte?_byteSize (s t : Text) : splitAtByte? (byteSize s) (s ++ t) = some (s, t) := by
  induction s with
  | nil => simp [splitAtByte?]
  | cons c s ih =>
    obtain ⟨n, hn⟩ : ∃ n, byteSize (c :: s) = n + 1 :=
      ⟨byteSize (c :: s) - 1, by have := c.utf8Size_pos; simp; omega⟩
    have hc : c.utf8Size ≤ n + 1 := by simp at hn; omega
    have hs : n + 1 - c.utf8Size = byteSize s := by simp at hn; omega
    rw [hn]
    simp [splitAtByte?, hc, hs, ih]

theorem eq_of_splitAtByte? {n : Nat} {t a b : Text} (h : splitAtByte? n t = some (a, b)) :
    t = a ++ b ∧ byteSize a = n := by
  induction t generalizing n a b with
  | nil => cases n <;> simp_all [splitAtByte?]
  | cons c r ih =>
    cases n with
    | zero => simp_all [splitAtByte?]
    | succ n =>
      by_cases hc : c.utf8Size ≤ n + 1
      · simp only [splitAtByte?, hc, if_true, Option.map_eq_some_iff] at h
        obtain ⟨⟨a', b'⟩, hs, heq⟩ := h
        obtain ⟨rfl, rfl⟩ := Prod.mk.inj heq
        obtain ⟨hr, hb⟩ := ih hs
        exact ⟨by simp [hr], by simp; omega⟩
      · simp [splitAtByte?, hc] at h

theorem splitAtByte?_eq_some_iff {n : Nat} {t a b : Text} :
    splitAtByte? n t = some (a, b) ↔ t = a ++ b ∧ byteSize a = n := by
  refine ⟨eq_of_splitAtByte?, ?_⟩
  rintro ⟨rfl, rfl⟩
  exact splitAtByte?_byteSize a b

theorem occursIn_iff {part t : Text} : occursIn part t = true ↔ part <:+: t := by
  induction t with
  | nil => simp [occursIn]
  | cons c r ih => simp [occursIn, ih, List.infix_cons_iff]

end Text

end StyleVars
