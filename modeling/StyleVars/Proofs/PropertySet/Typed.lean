import StyleVars.Proofs.PropertySet.Search
import StyleVars.Proofs.Text.Sigma

namespace StyleVars.Property

open Text (EndsWord Loose)

variable {term : Text}

/-- The term stands in the entry as it was typed, and its sigmas end words there where they do in
the term. -/
def StandsIn (term name : Text) : Prop :=
  ∃ before after, name = before ++ term ++ after ∧
    ∀ x y, term = x ++ 'Σ' :: y → (EndsWord (before ++ x) (y ++ after) ↔ EndsWord x y)

theorem StandsIn.matchesTerm {name : Text} (h : StandsIn term name) :
    matchesTerm term name = true := by
  obtain ⟨before, after, rfl, hsigma⟩ := h
  exact matchesTerm_iff.2 (Text.lower_infix_lower hsigma)

theorem standsIn_of_part {name : Text} (h : term <:+: name)
    (hloose : ∀ x y, term = x ++ 'Σ' :: y → ¬ Loose x y) : StandsIn term name := by
  obtain ⟨before, after, rfl⟩ := h
  refine ⟨before, after, rfl, fun x y hxy => ?_⟩
  exact Text.endsWord_iff_of_not_loose (hloose x y hxy) before after

/-- A search keeps every entry that holds the term as it was typed, in the order of the list and as
often as it stands there, unless each time the term is met one of its capital sigmas takes another
letter there. Terms without such a sigma at either end, and no others, find every entry that holds
them. -/
theorem filter_keeps_typed (term : Text) :
    (∀ names : List Text, (filter names term).Sublist names ∧
      ∀ kept : List Text, kept.Sublist names → (∀ name ∈ kept, StandsIn term name) →
        kept.Sublist (filter names term)) ∧
    ((∀ names : List Text, ∀ name ∈ names, term <:+: name → name ∈ filter names term) ↔
      ∀ x y, term = x ++ 'Σ' :: y → ¬ Loose x y) := by
  refine ⟨fun names => ⟨List.filter_sublist, fun kept hsub hkept => ?_⟩, ?_, ?_⟩
  · have hall : kept.filter (matchesTerm term) = kept :=
      List.filter_eq_self.2 fun name hname => (hkept name hname).matchesTerm
    have hfilter := hsub.filter (matchesTerm term)
    rwa [hall] at hfilter
  · rintro h x y rfl hloose
    obtain ⟨name, hmem, hnot⟩ := Text.exists_not_infix_of_loose hloose
    have hfound := h [name] name (List.mem_singleton_self name) hmem
    exact hnot (matchesTerm_iff.1 (List.mem_filter.1 hfound).2)
  · intro hloose names name hname hpart
    exact List.mem_filter.2 ⟨hname, (standsIn_of_part hpart hloose).matchesTerm⟩

theorem filter_keeps_typed_two_sigmas :
    let term : Text := ['o', 'Σ', ' ', 'Σ', 'o']
    let name : Text := ['n', 'o', 'Σ', ' ', 'Σ', 'o', 'n']
    let names : List Text := [name, ['o', 'Σ'], name]
    [name, name].Sublist names ∧ (∀ n ∈ [name, name], StandsIn term n) ∧
    [name, name].Sublist (filter names term) := by
  intro term name names
  have hsub : [name, name].Sublist names := by decide
  have hloose : ∀ x y, term = x ++ 'Σ' :: y → ¬ Loose x y := by
    intro x y hxy
    simp only [term, List.cons_eq_append_iff] at hxy
    obtain ⟨-, ⟨⟩⟩ | ⟨_, rfl, ⟨rfl, h⟩ | ⟨_, rfl, ⟨-, ⟨⟩⟩ | ⟨_, rfl, ⟨rfl, h⟩ | ⟨_, rfl, h⟩⟩⟩⟩ := hxy
    · cases h
      decide +kernel
    · cases h
      decide +kernel
    · simp at h
  have hstands : ∀ n ∈ [name, name], StandsIn term n := by
    have hpart : term <:+: name := ⟨['n'], ['n'], rfl⟩
    simpa using standsIn_of_part hpart hloose
  exact ⟨hsub, hstands, ((filter_keeps_typed term).1 names).2 _ hsub hstands⟩

/-- A sigma that ends the term ends no word in the entry, and the search drops the entry. -/
theorem typed_sigma_not_kept :
    let term : Text := ['a', 'Σ']
    let name : Text := ['a', 'Σ', 'b']
    term <:+: name ∧ filter [name] term = [] ∧
    ¬ ∀ (names : List Text) (term name : Text), name ∈ names → term <:+: name →
      name ∈ filter names term := by
  intro term name
  have hpart : term <:+: name := ⟨[], ['b'], rfl⟩
  have hfilter : filter [name] term = [] := by decide +kernel
  refine ⟨hpart, hfilter, fun h => ?_⟩
  have hmem := h [name] term name (List.mem_singleton_self name) hpart
  rw [hfilter] at hmem
  cases hmem

end StyleVars.Property
