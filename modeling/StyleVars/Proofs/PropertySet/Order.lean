import Mathlib.Data.List.Sort
import StyleVars.PropertySet.Basic

namespace StyleVars

theorem Text.precedes_iff_lex {s t : Text} :
    s.precedes t = true ↔ List.Lex (fun a b => a.toNat < b.toNat) s t := by
  induction s generalizing t with
  | nil =>
    cases t with
    | nil => exact ⟨fun h => by simp at h, nofun⟩
    | cons b t => exact ⟨fun _ => .nil, fun _ => rfl⟩
  | cons a s ih =>
    cases t with
    | nil => exact ⟨fun h => by simp at h, nofun⟩
    | cons b t =>
      rw [Text.cons_precedes_cons, ih]
      constructor
      · rintro (h | ⟨rfl, h⟩)
        · exact .rel h
        · exact .cons h
      · intro h
        cases h with
        | rel h => exact Or.inl h
        | cons h => exact Or.inr ⟨rfl, h⟩

namespace PropertySet

theorem ascending_codePoints (s : PropertySet) :
    s.toList.Pairwise (List.Lex fun a b => a.toNat < b.toNat) :=
  s.ascending.imp Text.precedes_iff_lex.1

theorem eq_of_mem_iff {s t : PropertySet} (h : ∀ x, x ∈ s.toList ↔ x ∈ t.toList) : s = t := by
  have : Std.Irrefl fun a b : Text => a.precedes b = true :=
    ⟨fun a => by simp [Text.precedes_irrefl]⟩
  have : Std.Antisymm fun a b : Text => a.precedes b = true :=
    ⟨fun a b hab hba => absurd hba (by simp [Text.not_precedes_of_precedes hab])⟩
  have hnames : s.names = t.names := s.ascending.eq_of_mem_iff t.ascending h
  cases s
  cases t
  cases hnames
  rfl

end PropertySet

end StyleVars
