import Mathlib.Data.Finset.Card
import StyleVars.Proofs.Json.RoundTrip
import StyleVars.Proofs.PropertySet.Order
import StyleVars.Proofs.Text.ByteOrder

namespace StyleVars.PropertySet

variable {x : Text} {names : List Text}

theorem ascending_halves {middle : Text} {above : List Text} {k : Nat}
    (h : names.Pairwise fun a b => a.precedes b = true) (hdrop : names.drop k = middle :: above) :
    ((names.take k).Pairwise fun a b => a.precedes b = true) ∧
    (above.Pairwise fun a b => a.precedes b = true) ∧
    (∀ a ∈ names.take k, a.precedes middle = true) ∧ (∀ a ∈ above, middle.precedes a = true) ∧
    (x ∈ names ↔ x ∈ names.take k ∨ x = middle ∨ x ∈ above) := by
  have hnames : names.take k ++ middle :: above = names := by
    rw [← hdrop, List.take_append_drop]
  have hsplit := hnames ▸ h
  obtain ⟨hbelow, hrest, hcross⟩ := List.pairwise_append.1 hsplit
  obtain ⟨hmiddle, habove⟩ := List.pairwise_cons.1 hrest
  refine ⟨hbelow, habove, fun a ha => hcross a ha middle List.mem_cons_self, hmiddle, ?_⟩
  conv_lhs => rw [← hnames]
  rw [List.mem_append, List.mem_cons]

theorem search_iff_mem (h : names.Pairwise fun a b => a.precedes b = true) :
    search x names = true ↔ x ∈ names := by
  fun_induction search x names with
  | case1 names hdrop =>
    have hnil : names = [] := by
      have hlength := List.drop_eq_nil_iff.1 hdrop
      exact List.eq_nil_of_length_eq_zero (by omega)
    simp [hnil]
  | case2 names above hdrop =>
    have hmem : x ∈ names.drop (names.length / 2) := by simp [hdrop]
    simp [List.mem_of_mem_drop hmem]
  | case3 names middle above hdrop hne hlt ih =>
    -- The upper half is all behind the middle, so the name cannot be there.
    obtain ⟨hbelow, -, -, hgt, hmem⟩ := ascending_halves h hdrop
    have habove : x ∉ above := by
      intro hx
      have hbefore := hgt x hx
      rw [Text.not_precedes_of_precedes hlt] at hbefore
      cases hbefore
    rw [ih hbelow, hmem]
    simp [hne, habove]
  | case4 names middle above hdrop hne hlt ih =>
    obtain ⟨-, habove, hprecedes, -, hmem⟩ := ascending_halves h hdrop
    have hbelow : x ∉ names.take (names.length / 2) := fun hx => hlt (hprecedes x hx)
    rw [ih habove, hmem]
    simp [hne, hbelow]

theorem contains_iff_mem (s : PropertySet) : s.contains x = true ↔ x ∈ s.toList :=
  search_iff_mem s.ascending

theorem nodup_toList (s : PropertySet) : s.toList.Nodup := by
  apply s.ascending.imp
  rintro a b hab rfl
  rw [Text.precedes_irrefl] at hab
  cases hab

theorem size_ofList (names : List Text) : (ofList names).size = names.toFinset.card := by
  have hmembers : (ofList names).toList.toFinset = names.toFinset := by
    ext x
    rw [List.mem_toFinset, List.mem_toFinset, mem_toList_ofList]
  rw [← hmembers, List.toFinset_card_of_nodup (nodup_toList _)]
  rfl

theorem ofList_eq_iff {names' : List Text} :
    ofList names = ofList names' ↔ ∀ x, x ∈ names ↔ x ∈ names' := by
  constructor
  · intro h x
    rw [← mem_toList_ofList, h, mem_toList_ofList]
  · intro h
    apply eq_of_mem_iff
    intro x
    rw [mem_toList_ofList, mem_toList_ofList, h]

theorem ofJson?_eq_some_iff {json : Text} {s : PropertySet} :
    ofJson? json = some s ↔
      ∃ names : List Text,
        Json.read json = some (.array (names.map fun name => .string (some name))) ∧
          ofList names = s := by
  simp only [ofJson?, ofValue?, Option.bind_eq_bind, Option.bind_eq_some_iff,
    Option.map_eq_map, Option.map_eq_some_iff, Json.Value.texts?_eq_some_iff]
  constructor
  · rintro ⟨v, hread, names, rfl, hs⟩
    exact ⟨names, hread, hs⟩
  · rintro ⟨names, hread, hs⟩
    exact ⟨_, hread, names, rfl, hs⟩

/-- A set made of names lists each of them once, in the order of code points and of bytes alike, and
the search by halves finds them all and nothing else. Lists of the same names make the same set, and
reading JSON that lists the names makes no other. -/
theorem made_of_names (names : List Text) :
    ((ofList names).toList.Pairwise (List.Lex fun a b => a.toNat < b.toNat) ∧
      (ofList names).toList.Pairwise fun a b => Utf8.encode a < Utf8.encode b) ∧
    (∀ x, x ∈ (ofList names).toList ↔ x ∈ names) ∧
    (ofList names).size = names.toFinset.card ∧
    (∀ x, (ofList names).contains x = true ↔ x ∈ names) ∧
    (∀ names', ofList names = ofList names' ↔ ∀ x, x ∈ names ↔ x ∈ names') ∧
    ofJson? (Json.writeList names) = some (ofList names) ∧
    ∀ json, Json.read json = some (.array (names.map fun name => .string (some name))) →
      ofJson? json = some (ofList names) := by
  have hbytes := (ofList names).ascending.imp Text.precedes_iff_encode_lt.1
  have hread : ∀ json,
      Json.read json = some (.array (names.map fun name => .string (some name))) →
        ofJson? json = some (ofList names) :=
    fun json hjson => ofJson?_eq_some_iff.2 ⟨names, hjson, rfl⟩
  refine ⟨⟨ascending_codePoints _, hbytes⟩, fun x => mem_toList_ofList, size_ofList names,
    fun x => ?_, fun names' => ofList_eq_iff, hread _ (Json.read_writeList names), hread⟩
  rw [contains_iff_mem, mem_toList_ofList]

theorem made_of_names_twice :
    let b : Text := "--b".toList
    let bb : Text := "--bb".toList
    let json : Text := "[\"--b\\u0062\", \"--b\" ,\"--bb\"]".toList
    Json.read json = some (.array ([bb, b, bb].map fun name => .string (some name))) ∧
    ofJson? json = some (ofList [bb, b, bb]) ∧ (ofList [bb, b, bb]).size = 2 ∧
    (ofList [bb, b, bb]).contains b = true ∧ ofList [bb, b, bb] = ofList [b, bb] := by
  intro b bb json
  have hread : Json.read json =
      some (.array ([bb, b, bb].map fun name => .string (some name))) := by rfl
  obtain ⟨-, -, hsize, hcontains, hsame, -, hjson⟩ := made_of_names [bb, b, bb]
  have hsize' : (ofList [bb, b, bb]).size = 2 := hsize.trans (by decide)
  refine ⟨hread, hjson json hread, hsize', (hcontains b).2 (by simp), (hsame [b, bb]).2 ?_⟩
  intro x
  simp only [List.mem_cons, List.not_mem_nil, or_false]
  tauto

end StyleVars.PropertySet
