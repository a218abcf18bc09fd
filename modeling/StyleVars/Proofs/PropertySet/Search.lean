import Mathlib.Data.List.Forall2
import StyleVars.Proofs.Property.Places
import StyleVars.Proofs.Text.Lower
import StyleVars.PropertySet.Filter

namespace StyleVars

open Text (kelvin lowerAscii LowersToAscii)

variable {term name : Text}

namespace Property

theorem matchesTerm_iff : matchesTerm term name = true ↔ term.lower <:+: name.lower := by
  unfold matchesTerm
  rw [Bool.or_eq_true, Text.occursIn_iff, List.isEmpty_iff]
  refine ⟨fun h => h.elim (fun hnil => ?_) id, Or.inr⟩
  rw [hnil]
  exact List.nil_infix

theorem toNat_lt_of_isNameChar {c : Char} (h : isNameChar c = true) : c.toNat < 128 := by
  simp only [isNameChar, isNameStart, Bool.or_eq_true, Bool.and_eq_true, decide_eq_true_eq,
    beq_iff_eq] at h
  have hle {d : Char} (hd : c ≤ d) (hascii : d.toNat < 128) : c.toNat < 128 :=
    Nat.lt_of_le_of_lt (UInt32.le_iff_toNat_le.1 hd) hascii
  obtain (((⟨-, h⟩ | ⟨-, h⟩) | rfl) | ⟨-, h⟩) | rfl := h
  · exact hle h (by decide)
  · exact hle h (by decide)
  · decide
  · exact hle h (by decide)
  · decide

theorem ascii_of_isName (h : isName name = true) : ∀ c ∈ name, c.toNat < 128 :=
  fun c hc => toNat_lt_of_isNameChar (List.all_eq_true.1 (isName_iff.1 h).2 c hc)

/-- The letters of the term stand next to each other in the name, each in either case. -/
def Holds (name term : Text) : Prop :=
  ∃ part, part <:+: name ∧ List.Forall₂ (fun c d => c.toLower = lowerAscii d) part term

theorem holds_iff : Holds name term ↔ term.map lowerAscii <:+: name.map Char.toLower := by
  rw [List.infix_map_iff]
  refine exists_congr fun part => and_congr_right fun hpart => ?_
  rw [eq_comm (a := term.map lowerAscii), ← List.forall₂_eq_eq_eq, List.forall₂_map_left_iff,
    List.forall₂_map_right_iff]

theorem Holds.mono {term' : Text} (hterm : term' <:+: term) (h : Holds name term) :
    Holds name term' := by
  rw [holds_iff] at h ⊢
  exact (hterm.map lowerAscii).trans h

theorem lowersToAscii_of_part (h : ∀ c ∈ name, c.toNat < 128)
    (hpart : term.map lowerAscii <:+: name.map Char.toLower) : ∀ d ∈ term, LowersToAscii d := by
  intro d hd
  obtain ⟨c, hc, hletter⟩ := List.mem_map.1 (hpart.subset (List.mem_map_of_mem hd))
  rw [← Text.lowerAscii_lt_iff, ← hletter, ← Text.lowerAscii_of_ascii (h c hc)]
  exact Text.lowerAscii_lt_iff.2 (Or.inl (h c hc))

theorem lower_of_ascii (h : ∀ c ∈ name, c.toNat < 128) : name.lower = name.map Char.toLower := by
  rw [Text.lower_eq_map fun c hc => Or.inl (h c hc)]
  exact List.map_congr_left fun c hc => Text.lowerAscii_of_ascii (h c hc)

theorem matchesTerm_iff_holds (h : ∀ c ∈ name, c.toNat < 128) :
    matchesTerm term name = true ↔ Holds name term := by
  rw [matchesTerm_iff, holds_iff, ← lower_of_ascii h]
  constructor
  · intro hpart
    have hascii : ∀ d ∈ term.lower, d.toNat < 128 := fun d hd =>
      Text.lower_ascii_iff.2 (fun c hc => Or.inl (h c hc)) d (hpart.subset hd)
    rwa [← Text.lower_eq_map (Text.lower_ascii_iff.1 hascii)]
  · intro hpart
    rw [lower_of_ascii h] at hpart
    rwa [Text.lower_eq_map (lowersToAscii_of_part h hpart), lower_of_ascii h]

end Property

namespace PropertySet

variable {s : PropertySet}

theorem mem_filter_iff (hs : ∀ name ∈ s.toList, Property.isName name = true) :
    name ∈ s.filter term ↔ name ∈ s.toList ∧ Property.Holds name term := by
  rw [filter, Property.filter, List.mem_filter]
  refine and_congr_right fun hname => ?_
  exact Property.matchesTerm_iff_holds (Property.ascii_of_isName (hs name hname))

theorem filter_sublist_filter {term' : Text}
    (hs : ∀ name ∈ s.toList, Property.isName name = true) (hterm : term' <:+: term) :
    (s.filter term).Sublist (s.filter term') := by
  have hboth : s.filter term = (s.filter term').filter (Property.matchesTerm term) := by
    rw [filter, filter, Property.filter, Property.filter, List.filter_filter]
    refine List.filter_congr fun name hname => ?_
    have hname := Property.ascii_of_isName (hs name hname)
    cases h : Property.matchesTerm term name with
    | false => rfl
    | true =>
      have hholds := ((Property.matchesTerm_iff_holds hname).1 h).mono hterm
      rw [(Property.matchesTerm_iff_holds hname).2 hholds, Bool.true_and]
  rw [hboth]
  exact List.filter_sublist

/-- A search among names of properties keeps those that hold the term up to the case of ASCII
letters, where the Kelvin sign stands for the letter `k`. No name holds any other character beyond
ASCII, and what is found for a longer term is found for each part of it. -/
theorem filter_by_letters (s : PropertySet)
    (hs : ∀ name ∈ s.toList, Property.isName name = true) :
    (∀ term, (s.filter term).Sublist s.toList ∧
      ∀ name, name ∈ s.filter term ↔ name ∈ s.toList ∧ ∃ part, part <:+: name ∧
        List.Forall₂ (fun c d => c.toLower = if d = '\u212A' then 'k' else d.toLower) part term) ∧
    (∀ term : Text, (∃ d ∈ term, 128 ≤ d.toNat ∧ d ≠ '\u212A') → s.filter term = []) ∧
    ∀ t u : Text, (s.filter (t ++ u)).Sublist (s.filter t) ∧
      (s.filter (u ++ t)).Sublist (s.filter t) := by
  refine ⟨fun term => ⟨List.filter_sublist, fun name => mem_filter_iff hs⟩, ?_, fun t u => ⟨?_, ?_⟩⟩
  · rintro term ⟨d, hd, hascii, hkelvin⟩
    rw [List.eq_nil_iff_forall_not_mem]
    intro name hname
    obtain ⟨hmem, hholds⟩ := (mem_filter_iff hs).1 hname
    have hname := Property.ascii_of_isName (hs name hmem)
    obtain h | h := Property.lowersToAscii_of_part hname (Property.holds_iff.1 hholds) d hd
    · omega
    · exact hkelvin h
  · exact filter_sublist_filter hs (List.prefix_append t u).isInfix
  · exact filter_sublist_filter hs (List.suffix_append u t).isInfix

theorem filter_by_letters_kelvin :
    let s : PropertySet := { names := ["--Links".toList, "--inks".toList, "--k".toList] }
    let t : Text := ['I', 'n', '\u212A']
    (∀ name ∈ s.toList, Property.isName name = true) ∧
    s.filter t = ["--Links".toList, "--inks".toList] ∧
    (∃ part, part <:+: "--Links".toList ∧
      List.Forall₂ (fun c d => c.toLower = if d = '\u212A' then 'k' else d.toLower) part t) ∧
    s.filter (t ++ ['Σ']) = [] ∧
    (s.filter ("-".toList ++ t)).Sublist (s.filter t) := by
  intro s t
  have hs : ∀ name ∈ s.toList, Property.isName name = true := by decide +kernel
  obtain ⟨hmem, hbeyond, hmono⟩ := filter_by_letters s hs
  have hfilter : s.filter t = ["--Links".toList, "--inks".toList] := by decide +kernel
  have hlinks : "--Links".toList ∈ s.filter t := by simp [hfilter]
  refine ⟨hs, hfilter, (((hmem t).2 _).1 hlinks).2, ?_, (hmono t "-".toList).2⟩
  exact hbeyond _ ⟨'Σ', by simp, by decide, by decide⟩

end PropertySet

end StyleVars
