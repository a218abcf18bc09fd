import Mathlib.Data.List.Forall2

namespace StyleVars.Attempt

variable {ε ε' α β : Type}

theorem bind_eq_ok {x : Except ε α} {f : α → Except ε β} {b : β} :
    x >>= f = .ok b ↔ ∃ a, x = .ok a ∧ f a = .ok b := by
  cases x with
  | error e => exact ⟨nofun, fun ⟨a, h, _⟩ => nomatch h⟩
  | ok a => exact ⟨fun h => ⟨a, rfl, h⟩, fun ⟨_, h, hb⟩ => by cases h; exact hb⟩

theorem bind_eq_error {x : Except ε α} {f : α → Except ε β} {e : ε} :
    x >>= f = .error e ↔ x = .error e ∨ ∃ a, x = .ok a ∧ f a = .error e := by
  cases x with
  | error e' =>
    constructor
    · intro h
      exact Or.inl (congrArg Except.error (Except.error.inj h))
    · rintro (h | ⟨a, h, -⟩)
      · exact congrArg Except.error (Except.error.inj h)
      · cases h
  | ok a =>
    constructor
    · intro h
      exact Or.inr ⟨a, rfl, h⟩
    · rintro (h | ⟨_, h, he⟩)
      · cases h
      · cases h
        exact he

theorem mapError_eq_ok {x : Except ε α} {g : ε → ε'} {a : α} :
    x.mapError g = .ok a ↔ x = .ok a := by
  cases x <;> simp [Except.mapError]

theorem mapError_eq_error {x : Except ε α} {g : ε → ε'} {e : ε'} :
    x.mapError g = .error e ↔ ∃ cause, x = .error cause ∧ g cause = e := by
  cases x <;> simp [Except.mapError]

variable {f : α → Except ε β} {xs : List α} {ys : List β}

theorem mapM_eq_ok : xs.mapM f = .ok ys ↔ List.Forall₂ (fun x y => f x = .ok y) xs ys := by
  induction xs generalizing ys with
  | nil =>
    rw [List.mapM_nil, List.forall₂_nil_left_iff]
    exact ⟨fun h => (Except.ok.inj h).symm, fun h => h ▸ rfl⟩
  | cons x xs ih =>
    rw [List.mapM_cons, List.forall₂_cons_left_iff, bind_eq_ok]
    constructor
    · rintro ⟨y, hy, h⟩
      obtain ⟨ys', hys, h⟩ := bind_eq_ok.1 h
      exact ⟨y, ys', hy, ih.1 hys, (Except.ok.inj h).symm⟩
    · rintro ⟨y, ys', hy, hys, rfl⟩
      exact ⟨y, hy, bind_eq_ok.2 ⟨ys', ih.2 hys, rfl⟩⟩

theorem mem_of_mapM_eq_error {e : ε} (h : xs.mapM f = .error e) : ∃ x ∈ xs, f x = .error e := by
  induction xs with
  | nil => cases h
  | cons x xs ih =>
    rw [List.mapM_cons] at h
    obtain h | ⟨y, -, h⟩ := bind_eq_error.1 h
    · exact ⟨x, by simp, h⟩
    · obtain h | ⟨ys, -, h⟩ := bind_eq_error.1 h
      · obtain ⟨x', hx', h⟩ := ih h
        exact ⟨x', by simp [hx'], h⟩
      · cases h

theorem mem_iff_of_mapM_eq_ok (h : xs.mapM f = .ok ys) {y : β} :
    y ∈ ys ↔ ∃ x ∈ xs, f x = .ok y := by
  induction mapM_eq_ok.1 h with
  | nil => simp
  | cons hy hys ih =>
    have ih := ih (mapM_eq_ok.2 hys)
    rw [List.mem_cons, ih, List.exists_mem_cons_iff, hy]
    exact or_congr ⟨fun h => congrArg _ h.symm, fun h => (Except.ok.inj h).symm⟩ Iff.rfl

theorem pairwise_of_mapM_eq_ok {r : α → α → Prop} {r' : β → β → Prop} (h : xs.mapM f = .ok ys)
    (hr : ∀ x x' y y', r x x' → f x = .ok y → f x' = .ok y' → r' y y') (hxs : xs.Pairwise r) :
    ys.Pairwise r' := by
  induction mapM_eq_ok.1 h with
  | nil => exact .nil
  | @cons x y xs ys hy hys ih =>
    have hmap := mapM_eq_ok.2 hys
    rw [List.pairwise_cons] at hxs ⊢
    refine ⟨fun y' hy' => ?_, ih hmap hxs.2⟩
    obtain ⟨x', hx', hfx'⟩ := (mem_iff_of_mapM_eq_ok hmap).1 hy'
    exact hr x x' y y' (hxs.1 x' hx') hy hfx'

theorem exists_mapM_eq_ok {β' : Type} {g : α → Except ε β'} {r : β' → β → Prop}
    (h : xs.mapM f = .ok ys) (hg : ∀ x y, f x = .ok y → ∃ y', g x = .ok y' ∧ r y' y) :
    ∃ ys', xs.mapM g = .ok ys' ∧ List.Forall₂ r ys' ys := by
  induction mapM_eq_ok.1 h with
  | nil => exact ⟨[], rfl, .nil⟩
  | cons hy hys ih =>
    obtain ⟨y', hy', hr⟩ := hg _ _ hy
    obtain ⟨ys', hys', hrest⟩ := ih (mapM_eq_ok.2 hys)
    refine ⟨y' :: ys', ?_, .cons hr hrest⟩
    rw [mapM_eq_ok] at hys' ⊢
    exact .cons hy' hys'

theorem mapM_isOk_iff : (∃ ys, xs.mapM f = .ok ys) ↔ ∀ x ∈ xs, ∃ y, f x = .ok y := by
  constructor
  · rintro ⟨ys, h⟩ x hx
    induction mapM_eq_ok.1 h with
    | nil => cases hx
    | cons hy hys ih =>
      obtain rfl | hx := List.mem_cons.1 hx
      · exact ⟨_, hy⟩
      · exact ih (mapM_eq_ok.2 hys) hx
  · intro h
    cases hys : xs.mapM f with
    | ok ys => exact ⟨ys, rfl⟩
    | error e =>
      obtain ⟨x, hx, he⟩ := mem_of_mapM_eq_error hys
      obtain ⟨y, hy⟩ := h x hx
      cases he.symm.trans hy

end StyleVars.Attempt
