import StyleVars.Proofs.Document.Insertion

namespace StyleVars

namespace Text.Inserted

variable {s t t' : Text} {start : Nat} {offsets : List Nat}

theorem sublist (h : Inserted s start offsets t t') : t.Sublist t' := by
  induction h with
  | none => exact .refl _
  | @next start offsets a t t' h ih =>
    rw [List.append_assoc]
    exact (List.Sublist.refl a).append (ih.trans (List.sublist_append_right s t'))

theorem byteSize_eq (h : Inserted s start offsets t t') :
    t'.byteSize = t.byteSize + s.byteSize * offsets.length := by
  induction h with
  | none => simp
  | next h ih =>
    simp only [byteSize_append, List.length_cons, ih, Nat.mul_succ]
    omega

end Text.Inserted

inductive Edit where
  | select (selections : List Selection)
  | insertAll (offsets : List Nat) (inserted : Text)
  | insertReference (property : Text)

namespace Buffer

def edited (b : Buffer) : Edit → Except Error Buffer
  | .select selections => b.select selections
  | .insertAll offsets inserted => b.insertAll offsets inserted
  | .insertReference property => b.insertReference property

/-- Makes an edit in place. Beside the answer stands the buffer as it is by then. -/
def perform (b : Buffer) (edit : Edit) : Except Error Unit × Buffer :=
  match b.edited edit with
  | .ok b' => (.ok (), b')
  | .error e => (.error e, b)

variable {b b' : Buffer} {s t : Text} {offsets : List Nat} {edit : Edit} {o : Nat}

theorem perform_of_ok (h : b.edited edit = .ok b') : b.perform edit = (.ok (), b') := by
  rw [perform, h]

theorem perform_of_error {e : Error} (h : b.edited edit = .error e) :
    b.perform edit = (.error e, b) := by
  rw [perform, h]

theorem check_of_not_isBoundary (h : ∃ o ∈ offsets, t.isBoundary o = false) :
    ∃ before o after, offsets = before ++ o :: after ∧ (∀ x ∈ before, t.isBoundary x = true) ∧
      t.isBoundary o = false ∧ check t offsets = .error (.invalidPosition o) := by
  induction offsets with
  | nil =>
    obtain ⟨o, ho, -⟩ := h
    cases ho
  | cons x offsets ih =>
    cases hx : t.isBoundary x with
    | false => exact ⟨[], x, offsets, rfl, by simp, hx, by simp [check, hx]⟩
    | true =>
      have hrest : ∃ o ∈ offsets, t.isBoundary o = false := by
        obtain ⟨o, ho, hfalse⟩ := h
        obtain rfl | ho := List.mem_cons.1 ho
        · simp [hx] at hfalse
        · exact ⟨o, ho, hfalse⟩
      obtain ⟨before, o, after, rfl, hbefore, ho, hcheck⟩ := ih hrest
      refine ⟨x :: before, o, after, rfl, List.forall_mem_cons.2 ⟨hx, hbefore⟩, ho, ?_⟩
      rw [check, if_pos hx, hcheck]

theorem insertAll_of_check {e : Error} (h : check b.text offsets = .error e) (s : Text) :
    b.insertAll offsets s = .error e :=
  Attempt.bind_eq_error.2 (Or.inl h)

theorem isBoundary_insertAt {o' : Nat} (h : t.isBoundary o = true) (h' : t.isBoundary o' = true)
    (hle : o ≤ o') (s : Text) : (insertAt s t o').isBoundary o = true := by
  obtain ⟨x, y, rfl, rfl⟩ := Text.isBoundary_iff.1 h
  obtain ⟨x', y', heq, rfl⟩ := Text.isBoundary_iff.1 h'
  obtain ⟨between, rfl, rfl⟩ := Text.exists_of_byteSize_le heq hle
  refine Text.isBoundary_iff.2 ⟨x, between ++ s ++ y', ?_, rfl⟩
  rw [← List.append_assoc, insertAt_append]
  simp only [List.append_assoc]

theorem isBoundary_foldl_insertAt {done rest : List Nat}
    (hsorted : (done ++ o :: rest).Pairwise fun a b => b ≤ a)
    (h : ∀ x ∈ done ++ o :: rest, t.isBoundary x = true) (s : Text) :
    (done.foldl (insertAt s) t).isBoundary o = true := by
  induction done generalizing t with
  | nil => exact h o List.mem_cons_self
  | cons last done ih =>
    rw [List.cons_append, List.pairwise_cons] at hsorted
    refine ih hsorted.2 fun x hx => ?_
    exact isBoundary_insertAt (h x (List.mem_cons_of_mem _ hx)) (h last List.mem_cons_self)
      (hsorted.1 x hx) s

theorem isBoundary_of_turn (h : ∀ o ∈ offsets, t.isBoundary o = true) {done rest : List Nat}
    (hturn : (offsets.mergeSort fun a b => decide (b ≤ a)) = done ++ o :: rest) (s : Text) :
    (done.foldl (insertAt s) t).isBoundary o = true := by
  have hsorted := pairwise_lastFirst offsets
  have hperm := List.mergeSort_perm offsets fun a b => decide (b ≤ a)
  rw [hturn] at hsorted hperm
  exact isBoundary_foldl_insertAt hsorted (fun x hx => h x (hperm.mem_iff.1 hx)) s

theorem inserted_withCopies (h : ∀ o ∈ offsets, t.isBoundary o = true) (s : Text) :
    ∃ sorted, sorted.Perm offsets ∧ Text.Inserted s 0 sorted t
      (Text.withCopies (fun before _ => offsets.count before.byteSize) s [] t) := by
  obtain ⟨sorted, t', hperm, hinserted, heq⟩ := exists_insertAll { text := t } s h
  have hcopies := insertAll_eq_ok { text := t } s h
  obtain rfl : t' = Text.withCopies (fun before _ => offsets.count before.byteSize) s [] t :=
    congrArg Buffer.text (Except.ok.inj (heq.symm.trans hcopies))
  exact ⟨sorted, hperm, hinserted⟩

theorem sublist_withCopies (h : ∀ o ∈ offsets, t.isBoundary o = true) (s : Text) :
    t.Sublist (Text.withCopies (fun before _ => offsets.count before.byteSize) s [] t) := by
  obtain ⟨sorted, -, hinserted⟩ := inserted_withCopies h s
  exact hinserted.sublist

theorem byteSize_withCopies (h : ∀ o ∈ offsets, t.isBoundary o = true) (s : Text) :
    (Text.withCopies (fun before _ => offsets.count before.byteSize) s [] t).byteSize =
      t.byteSize + s.byteSize * offsets.length := by
  obtain ⟨sorted, hperm, hinserted⟩ := inserted_withCopies h s
  rw [hinserted.byteSize_eq, hperm.length_eq]

theorem shift_perm {offsets' : List Nat} (h : offsets'.Perm offsets) (s : Text) :
    shift offsets' s = shift offsets s := by
  funext o
  rw [shift, shift, h.countP_eq]

theorem insertAll_perm {offsets' : List Nat} (h : offsets'.Perm offsets)
    (hvalid : ∀ o ∈ offsets, b.text.isBoundary o = true) (s : Text) :
    b.insertAll offsets' s = b.insertAll offsets s := by
  have hvalid' : ∀ o ∈ offsets', b.text.isBoundary o = true := fun o ho =>
    hvalid o (h.mem_iff.1 ho)
  rw [b.insertAll_eq_ok s hvalid', b.insertAll_eq_ok s hvalid, shift_perm h]
  simp only [h.count_eq]

/-- All that an insertion at several offsets can do. When it is refused, the first offset that is
not between two characters is named, and the buffer is as before. Else each place has as many copies
as its offset is listed, none of the single insertions breaks off, and the selections and the text
are the same for any order of the offsets. -/
theorem insertAll_all_or_nothing (b : Buffer) (offsets : List Nat) (s : Text) :
    ((∃ o ∈ offsets, b.text.isBoundary o = false) →
      ∃ before o after, offsets = before ++ o :: after ∧
        (∀ x ∈ before, b.text.isBoundary x = true) ∧ b.text.isBoundary o = false ∧
        b.perform (.insertAll offsets s) = (.error (.invalidPosition o), b)) ∧
    ((∀ o ∈ offsets, b.text.isBoundary o = true) →
      ∃ b', b.perform (.insertAll offsets s) = (.ok (), b') ∧
        b'.text = Text.withCopies (fun before _ => offsets.count before.byteSize) s [] b.text ∧
        b'.selections = b.selections.map (Selection.map (shift offsets s)) ∧
        b.text.Sublist b'.text ∧
        b'.text.byteSize = b.text.byteSize + s.byteSize * offsets.length ∧
        (∀ done o rest, (offsets.mergeSort fun a b => decide (b ≤ a)) = done ++ o :: rest →
          (done.foldl (insertAt s) b.text).isBoundary o = true) ∧
        ∀ offsets', offsets'.Perm offsets → b.perform (.insertAll offsets' s) = (.ok (), b')) := by
  refine ⟨fun hrefused => ?_, fun hvalid => ?_⟩
  · obtain ⟨before, o, after, heq, hbefore, ho, hcheck⟩ := check_of_not_isBoundary hrefused
    exact ⟨before, o, after, heq, hbefore, ho, perform_of_error (insertAll_of_check hcheck s)⟩
  · have hcopies := b.insertAll_eq_ok s hvalid
    refine ⟨_, perform_of_ok hcopies, rfl, rfl, sublist_withCopies hvalid s,
      byteSize_withCopies hvalid s, fun done o rest hturn => isBoundary_of_turn hvalid hturn s,
      fun offsets' hoffsets' => ?_⟩
    exact perform_of_ok ((insertAll_perm hoffsets' hvalid s).trans hcopies)

theorem insertAll_all_or_nothing_two_bytes :
    let b : Buffer := ⟨['é', 'x'], [⟨0, 2⟩]⟩
    let s : Text := ['-']
    (∃ o ∈ [0, 1], b.text.isBoundary o = false) ∧
    b.perform (.insertAll [0, 1] s) = (.error (.invalidPosition 1), b) ∧
    (∀ o ∈ [2, 3, 2], b.text.isBoundary o = true) ∧
    [3, 2, 2].Perm [2, 3, 2] ∧
    b.perform (.insertAll [3, 2, 2] s) = (.ok (), ⟨['é', '-', '-', 'x', '-'], [⟨0, 4⟩]⟩) := by
  intro b s
  have hrefused : ∃ o ∈ [0, 1], b.text.isBoundary o = false := by decide
  have hvalid : ∀ o ∈ [2, 3, 2], b.text.isBoundary o = true := by decide
  have hperm : [3, 2, 2].Perm [2, 3, 2] := by decide
  obtain ⟨before, o, after, heq, hbefore, ho, hfails⟩ :=
    (insertAll_all_or_nothing b [0, 1] s).1 hrefused
  obtain ⟨⟨text, selections⟩, -, rfl, rfl, -, -, -, hany⟩ :=
    (insertAll_all_or_nothing b [2, 3, 2] s).2 hvalid
  refine ⟨hrefused, ?_, hvalid, hperm, hany _ hperm⟩
  have hone : o = 1 := by
    have hmem : o ∈ [0, 1] := heq ▸ by simp
    obtain rfl | rfl : o = 0 ∨ o = 1 := by simpa using hmem
    · exact absurd ho (by decide)
    · rfl
  exact hone ▸ hfails

end Buffer

end StyleVars
