import StyleVars.Proofs.Document.Insertion
import StyleVars.Proofs.Property.Places
import StyleVars.Proofs.PropertySet.Order

namespace StyleVars

open Property (isName isNameChar places reference tokens)

variable {name found t t' : Text} {start i : Nat} {offsets : List Nat}

namespace Property

theorem tokens_var : tokens ['v', 'a', 'r'] = [] := by
  simp [tokens]

/-- A text that is empty or ends in a character that no name can hold. -/
def EndsApart (a : Text) : Prop := a = [] ∨ ∃ x c, a = x ++ [c] ∧ isNameChar c = false

theorem EndsApart.tokens_append {a : Text} (h : EndsApart a) (b : Text) :
    tokens (a ++ b) = tokens a ++ tokens b := by
  obtain rfl | ⟨x, c, rfl, hc⟩ := h
  · simp [tokens]
  · have ha : tokens (x ++ [c]) = tokens x := by
      rw [tokens_append_cons hc]
      simp [tokens]
    rw [ha, List.append_assoc, List.singleton_append, tokens_append_cons hc]

end Property

namespace Text.Inserted

theorem length_le_count (h : Inserted (reference name) start offsets t t')
    (hname : isName name = true) : offsets.length ≤ (tokens t').count name := by
  induction h with
  | none => exact Nat.zero_le _
  | next h ih =>
    rw [Property.tokens_append_reference hname, List.count_append, List.count_cons_self,
      List.length_cons]
    omega

theorem mem_places_before {a b : Text} (hfound : (i, found) ∈ places start (a ++ t))
    (hi : i + found.byteSize < start + a.byteSize) : (i, found) ∈ places start (a ++ b) := by
  obtain ⟨-, x, y, heq, rfl, hy⟩ := Property.mem_places hfound
  have hle : (x ++ found).byteSize ≤ a.byteSize := by
    rw [byteSize_append]
    omega
  obtain ⟨between, rfl, rfl⟩ := exists_of_byteSize_le heq.symm hle
  cases between with
  | nil => simp only [byteSize_append, byteSize_nil] at hi; omega
  | cons c between =>
    have hc : isNameChar c = false := hy c (by simp)
    rw [List.append_assoc, List.cons_append, Property.places_append_cons hc] at hfound ⊢
    obtain hfound | hfound := List.mem_append.1 hfound
    · exact List.mem_append_left _ hfound
    · have hge := Property.start_le_of_mem_places hfound
      have hpos := c.utf8Size_pos
      rw [byteSize_append] at hge
      omega

theorem mem_places (h : Inserted (reference name) start offsets t t') (hname : isName name = true)
    (hfound : (i, found) ∈ places start t)
    (hoffsets : ∀ o ∈ offsets, ¬ (i < o ∧ o ≤ i + found.byteSize)) :
    (Buffer.shift offsets (reference name) i, found) ∈ places start t' := by
  induction h with
  | none => simpa [Buffer.shift] using hfound
  | @next start offsets a t t' h ih =>
    have hhere := hoffsets _ List.mem_cons_self
    by_cases hle : start + a.byteSize ≤ i
    · have hmem := ih (Property.mem_places_right hfound hle) fun o ho =>
        hoffsets o (List.mem_cons_of_mem _ ho)
      have hshift : Buffer.shift ((start + a.byteSize) :: offsets) (reference name) i =
          (reference name).byteSize + Buffer.shift offsets (reference name) i := by
        rw [Buffer.shift, Buffer.shift, List.countP_cons_of_pos (by simpa using hle), Nat.mul_succ]
        omega
      rw [Property.places_append_reference hname, hshift,
        Nat.add_comm (start + a.byteSize) (reference name).byteSize, Property.places_add]
      exact List.mem_append_right _ (List.mem_cons_of_mem _ (List.mem_map_of_mem hmem))
    · have hnone : ((start + a.byteSize) :: offsets).countP (fun o => decide (o ≤ i)) = 0 := by
        rw [List.countP_eq_zero]
        intro o ho
        obtain rfl | ho := List.mem_cons.1 ho
        · simpa using hle
        · have hge := h.start_le ho
          simp only [decide_eq_true_eq]
          omega
      rw [Buffer.shift, hnone, Nat.mul_zero, Nat.add_zero, List.append_assoc]
      exact mem_places_before hfound (by omega)

/-- The places at which an insertion glues nothing to a name. -/
def Apart (start : Nat) (t : Text) (o : Nat) : Prop :=
  o = start ∨ ∃ x c y, t = x ++ c :: y ∧ start + byteSize (x ++ [c]) = o ∧ isNameChar c = false

theorem Apart.endsApart {a : Text} (h : Apart start (a ++ t) (start + a.byteSize)) :
    Property.EndsApart a := by
  obtain h | ⟨x, c, y, heq, hsize, hc⟩ := h
  · exact Or.inl (eq_nil_of_byteSize_eq_zero (by omega))
  · have heq : (x ++ [c]) ++ y = a ++ t := by simp [heq]
    obtain ⟨between, rfl, -⟩ := exists_of_byteSize_le heq (by omega)
    rw [byteSize_append _ between] at hsize
    obtain rfl : between = [] := eq_nil_of_byteSize_eq_zero (by omega)
    exact Or.inr ⟨x, c, by simp, hc⟩

theorem Apart.right {a : Text} {o : Nat} (h : Apart start (a ++ t) o)
    (hle : start + a.byteSize ≤ o) : Apart (start + a.byteSize) t o := by
  obtain rfl | ⟨x, c, y, heq, rfl, hc⟩ := h
  · exact Or.inl (by omega)
  · have heq : a ++ t = (x ++ [c]) ++ y := by simp [heq]
    obtain ⟨between, hx, rfl⟩ := exists_of_byteSize_le heq (by omega)
    rw [hx, byteSize_append, ← Nat.add_assoc]
    obtain rfl | ⟨z, d, rfl⟩ := List.eq_nil_or_concat between
    · exact Or.inl rfl
    · rw [List.concat_eq_append, ← List.append_assoc] at hx
      obtain ⟨-, hd⟩ := List.append_inj' hx rfl
      obtain rfl := List.singleton_inj.1 hd
      exact Or.inr ⟨z, c, y, by simp, by simp, hc⟩

theorem mem_tokens_iff (h : Inserted (reference name) start offsets t t')
    (hname : isName name = true) (hoffsets : ∀ o ∈ offsets, Apart start t o) (found : Text) :
    found ∈ tokens t' ↔ (offsets ≠ [] ∧ found = name) ∨ found ∈ tokens t := by
  induction h with
  | none => simp
  | @next start offsets a t t' h ih =>
    have ha : Property.EndsApart a := (hoffsets _ List.mem_cons_self).endsApart
    have ih := ih fun o ho => (hoffsets o (List.mem_cons_of_mem _ ho)).right (h.start_le ho)
    have hreference : tokens (reference name ++ t') = name :: tokens t' := by
      have happend := Property.tokens_append_reference hname [] t'
      rwa [List.nil_append, List.nil_append, Property.tokens_var] at happend
    rw [List.append_assoc, ha.tokens_append, hreference, ha.tokens_append, List.mem_append,
      List.mem_cons, ih, List.mem_append]
    have hne : (start + a.byteSize) :: offsets ≠ [] := List.cons_ne_nil _ _
    grind

end Text.Inserted

/-- What a scan finds after references to a property have been inserted. Each of them counts,
whatever stands around it. A token is still found unless an insertion cuts it or is right behind it.
And if each insertion is at the beginning or behind a character that no name can hold, the set of
names is the old one with the property. -/
theorem Buffer.rescan_insertAll (b : Buffer) (hname : isName name = true) (hne : offsets ≠ [])
    (hoffsets : ∀ o ∈ offsets, b.text.isBoundary o = true) :
    ∃ b', b.insertAll offsets (reference name) = .ok b' ∧
      offsets.length ≤ (tokens b'.text).count name ∧
      (∀ i found, (i, found) ∈ places 0 b.text →
        (∀ o ∈ offsets, ¬ (i < o ∧ o ≤ i + found.byteSize)) →
        found ∈ tokens b'.text ∧ (shift offsets (reference name) i, found) ∈ places 0 b'.text) ∧
      ((∀ o ∈ offsets, o = 0 ∨ ∃ x c y, b.text = x ++ c :: y ∧
          Text.byteSize (x ++ [c]) = o ∧ isNameChar c = false) →
        PropertySet.ofList (tokens b'.text) = PropertySet.ofList (name :: tokens b.text)) := by
  obtain ⟨sorted, t', hperm, hinserted, heq⟩ := b.exists_insertAll (reference name) hoffsets
  refine ⟨_, heq, ?_, fun i found hfound hcut => ?_, fun hapart => ?_⟩
  · rw [← hperm.length_eq]
    exact hinserted.length_le_count hname
  · have hmem := hinserted.mem_places hname hfound fun o ho => hcut o (hperm.mem_iff.1 ho)
    have hshift : shift sorted (reference name) i = shift offsets (reference name) i := by
      rw [shift, shift, hperm.countP_eq]
    rw [hshift] at hmem
    exact ⟨Property.mem_tokens_of_mem_places hmem, hmem⟩
  · refine PropertySet.eq_of_mem_iff fun x => ?_
    have hsorted : sorted ≠ [] := fun h => hne (List.nil_perm.1 (h ▸ hperm))
    have hapart : ∀ o ∈ sorted, Text.Inserted.Apart 0 b.text o := fun o ho => by
      simpa only [Text.Inserted.Apart, Nat.zero_add] using hapart o (hperm.mem_iff.1 ho)
    rw [PropertySet.mem_toList_ofList, PropertySet.mem_toList_ofList,
      hinserted.mem_tokens_iff hname hapart, List.mem_cons]
    simp [hsorted]

theorem Buffer.rescan_insertAll_between_tokens :
    let b : Buffer := { text := "--a;--c".toList }
    let name : Text := "--b".toList
    ∃ b', b.insertAll [4, 4] (reference name) = .ok b' ∧ 2 ≤ (tokens b'.text).count name ∧
      "--a".toList ∈ tokens b'.text ∧ "--c".toList ∈ tokens b'.text ∧
      PropertySet.ofList (tokens b'.text) = PropertySet.ofList (name :: tokens b.text) := by
  intro b name
  have hname : isName name = true := by decide
  have hoffsets : ∀ o ∈ [4, 4], b.text.isBoundary o = true := by decide
  obtain ⟨b', heq, hcount, htokens, hset⟩ := b.rescan_insertAll hname (by simp) hoffsets
  refine ⟨b', heq, hcount, ?_, ?_, ?_⟩
  · exact (htokens 0 "--a".toList (by decide +kernel) (by decide +kernel)).1
  · exact (htokens 4 "--c".toList (by decide +kernel) (by decide +kernel)).1
  · refine hset fun o ho => Or.inr ⟨"--a".toList, ';', "--c".toList, by decide, ?_, by decide⟩
    obtain rfl : o = 4 := by simpa using ho
    decide

end StyleVars
