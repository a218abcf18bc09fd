import StyleVars.Document.Buffer
import StyleVars.Proofs.Attempt

namespace StyleVars

namespace Text

variable {s a b t : Text} {n : Nat}

theorem eq_nil_of_byteSize_eq_zero (h : t.byteSize = 0) : t = [] := by
  cases t with
  | nil => rfl
  | cons c t =>
    have hc := c.utf8Size_pos
    rw [byteSize_cons] at h
    omega

theorem isBoundary_iff : t.isBoundary n = true ↔ ∃ a b, t = a ++ b ∧ a.byteSize = n := by
  rw [isBoundary, Option.isSome_iff_exists]
  constructor
  · rintro ⟨⟨a, b⟩, h⟩
    exact ⟨a, b, eq_of_splitAtByte? h⟩
  · rintro ⟨a, b, h⟩
    exact ⟨(a, b), splitAtByte?_eq_some_iff.2 h⟩

theorem exists_of_byteSize_le {a' b' : Text} (h : a ++ b = a' ++ b')
    (hle : a.byteSize ≤ a'.byteSize) : ∃ between, a' = a ++ between ∧ b = between ++ b' := by
  obtain ⟨between, rfl, rfl⟩ | ⟨between, rfl, rfl⟩ := List.append_eq_append_iff.1 h
  · exact ⟨between, rfl, rfl⟩
  · rw [byteSize_append] at hle
    obtain rfl : between = [] := eq_nil_of_byteSize_eq_zero (by omega)
    exact ⟨[], by simp, by simp⟩

/-- The text behind `before`, with copies of `s` put in. Their number at each place is a function of
what stands before the place and behind it. -/
def withCopies (copies : Text → Text → Nat) (s before : Text) : Text → Text
  | [] => (List.replicate (copies before []) s).flatten
  | c :: after =>
    (List.replicate (copies before (c :: after)) s).flatten ++
      c :: withCopies copies s (before ++ [c]) after

variable {copies copies' : Text → Text → Nat} {before : Text}

theorem withCopies_congr
    (h : ∀ x y, t = x ++ y → copies (before ++ x) y = copies' (before ++ x) y) :
    withCopies copies s before t = withCopies copies' s before t := by
  induction t generalizing before with
  | nil =>
    have hhere := h [] [] rfl
    rw [List.append_nil] at hhere
    rw [withCopies, withCopies, hhere]
  | cons c t ih =>
    have hhere := h [] (c :: t) rfl
    rw [List.append_nil] at hhere
    rw [withCopies, withCopies, hhere, ih]
    rintro x y rfl
    simpa using h (c :: x) y rfl

theorem withCopies_none (s before t : Text) : withCopies (fun _ _ => 0) s before t = t := by
  induction t generalizing before with
  | nil => rfl
  | cons c t ih => rw [withCopies, ih]; rfl

theorem length_le_withCopies (copies : Text → Text → Nat) (s before t : Text) :
    t.length ≤ (withCopies copies s before t).length := by
  induction t generalizing before with
  | nil => exact Nat.zero_le _
  | cons c t ih =>
    have htail := ih (before ++ [c])
    rw [withCopies, List.length_append, List.length_cons, List.length_cons]
    omega

theorem length_lt_withCopies (h : copies before t ≠ 0) (hs : s ≠ []) :
    t.length < (withCopies copies s before t).length := by
  have hpos := List.length_pos_iff.2 hs
  have hle : s.length ≤ (List.replicate (copies before t) s).flatten.length :=
    (List.sublist_flatten_of_mem (List.mem_replicate.2 ⟨h, rfl⟩)).length_le
  cases t with
  | nil =>
    rw [withCopies]
    exact Nat.lt_of_lt_of_le hpos hle
  | cons c t =>
    have htail := length_le_withCopies copies s (before ++ [c]) t
    rw [withCopies, List.length_append, List.length_cons, List.length_cons]
    omega

theorem withCopies_append
    (h : ∀ x y, a = x ++ y → y ≠ [] → copies (before ++ x) (y ++ t) = 0) :
    withCopies copies s before (a ++ t) = a ++ withCopies copies s (before ++ a) t := by
  induction a generalizing before with
  | nil => simp
  | cons c a ih =>
    have hhere := h [] (c :: a) rfl (by simp)
    rw [List.append_nil, List.cons_append] at hhere
    rw [List.cons_append, withCopies, hhere, ih, List.append_assoc]
    · rfl
    · rintro x y rfl hy
      simpa using h (c :: x) y rfl hy

theorem withCopies_succ (hhere : copies before t = copies' before t + 1)
    (h : ∀ x y, t = x ++ y → x ≠ [] → copies (before ++ x) y = copies' (before ++ x) y) :
    withCopies copies s before t = s ++ withCopies copies' s before t := by
  cases t with
  | nil => rw [withCopies, withCopies, hhere, List.replicate_succ, List.flatten_cons]
  | cons c t =>
    have htail :
        withCopies copies s (before ++ [c]) t = withCopies copies' s (before ++ [c]) t := by
      refine withCopies_congr ?_
      rintro x y rfl
      simpa using h (c :: x) y rfl (by simp)
    rw [withCopies, withCopies, hhere, htail, List.replicate_succ, List.flatten_cons,
      List.append_assoc]

/-- The third text comes from the second one, which begins at the byte offset `start`, by inserting
`s` at the listed offsets, first one first. -/
inductive Inserted (s : Text) : Nat → List Nat → Text → Text → Prop where
  | none {start : Nat} {t : Text} : Inserted s start [] t t
  | next {start : Nat} {offsets : List Nat} {a t t' : Text}
      (h : Inserted s (start + a.byteSize) offsets t t') :
      Inserted s start ((start + a.byteSize) :: offsets) (a ++ t) (a ++ s ++ t')

theorem exists_inserted (s : Text) {start : Nat} {offsets : List Nat}
    (hsorted : offsets.Pairwise (· ≤ ·))
    (h : ∀ o ∈ offsets, ∃ a b, t = a ++ b ∧ start + a.byteSize = o) :
    ∃ t', Inserted s start offsets t t' := by
  induction offsets generalizing start t with
  | nil => exact ⟨t, .none⟩
  | cons o offsets ih =>
    obtain ⟨hle, hlater⟩ := List.pairwise_cons.1 hsorted
    obtain ⟨a, b, rfl, rfl⟩ := h o List.mem_cons_self
    have hplaces : ∀ o ∈ offsets, ∃ x y, b = x ++ y ∧ start + a.byteSize + x.byteSize = o := by
      intro o ho
      obtain ⟨a', y, heq, rfl⟩ := h o (List.mem_cons_of_mem _ ho)
      have hle := hle _ ho
      obtain ⟨x, rfl, rfl⟩ := exists_of_byteSize_le heq (by omega)
      exact ⟨x, y, rfl, by rw [byteSize_append, Nat.add_assoc]⟩
    obtain ⟨t', ht'⟩ := ih hlater hplaces
    exact ⟨_, .next ht'⟩

variable {start : Nat} {offsets : List Nat} {t' : Text}

theorem Inserted.start_le (h : Inserted s start offsets t t') {o : Nat} (ho : o ∈ offsets) :
    start ≤ o := by
  induction h with
  | none => cases ho
  | next h ih =>
    obtain rfl | ho := List.mem_cons.1 ho
    · omega
    · have hle := ih ho
      omega

theorem Inserted.eq_withCopies (before : Text) (h : Inserted s before.byteSize offsets t t') :
    t' = withCopies (fun x _ => offsets.count x.byteSize) s before t := by
  generalize hstart : before.byteSize = start at h
  induction h generalizing before with
  | none => simp [withCopies_none]
  | @next start offsets a t t' h ih =>
    subst hstart
    have hsize : (before ++ a).byteSize = before.byteSize + a.byteSize := byteSize_append before a
    have hlater {x : Text} (hx : x.byteSize ≠ before.byteSize + a.byteSize) :
        ((before.byteSize + a.byteSize) :: offsets).count x.byteSize = offsets.count x.byteSize :=
      List.count_cons_of_ne (Ne.symm hx)
    have hhere :
        withCopies (fun x _ => ((before.byteSize + a.byteSize) :: offsets).count x.byteSize) s
          (before ++ a) t =
          s ++ withCopies (fun x _ => offsets.count x.byteSize) s (before ++ a) t := by
      refine withCopies_succ (by simp only [hsize, List.count_cons_self]) fun x y _ hx => ?_
      refine hlater fun heq => hx (eq_nil_of_byteSize_eq_zero ?_)
      rw [byteSize_append] at heq
      omega
    -- The later offsets are not before this place, so no copies stand in front of it.
    rw [withCopies_append, hhere, ← ih _ hsize, List.append_assoc]
    rintro x y rfl hy
    have hpos : 0 < y.byteSize := Nat.pos_of_ne_zero fun h0 => hy (eq_nil_of_byteSize_eq_zero h0)
    have hlt : (before ++ x).byteSize < before.byteSize + (x ++ y).byteSize := by
      simp only [byteSize_append]
      omega
    rw [hlater (Nat.ne_of_lt hlt)]
    refine List.count_eq_zero.2 fun hmem => ?_
    have hle := h.start_le hmem
    omega

end Text

namespace Buffer

variable {s a b t : Text} {offsets : List Nat}

theorem check_eq_ok : check t offsets = .ok () ↔ ∀ o ∈ offsets, t.isBoundary o = true := by
  induction offsets with
  | nil => simp [check]
  | cons o offsets ih =>
    rw [check, List.forall_mem_cons, ← ih]
    split
    case isTrue h => exact ⟨fun h' => ⟨h, h'⟩, fun h' => h'.2⟩
    case isFalse h => exact ⟨nofun, fun h' => absurd h'.1 h⟩

theorem select_eq_ok {b b' : Buffer} {selections : List Selection} : b.select selections = .ok b' ↔
    (∀ sel ∈ selections, ∀ o ∈ sel.ends, b.text.isBoundary o = true) ∧
      { b with selections } = b' := by
  unfold select
  rw [Attempt.bind_eq_ok]
  constructor
  · rintro ⟨⟨⟩, h, heq⟩
    exact ⟨fun sel hsel o ho => check_eq_ok.1 h o (List.mem_flatMap.2 ⟨sel, hsel, ho⟩),
      Except.ok.inj heq⟩
  · rintro ⟨h, rfl⟩
    refine ⟨(), check_eq_ok.2 fun o ho => ?_, rfl⟩
    obtain ⟨sel, hsel, ho⟩ := List.mem_flatMap.1 ho
    exact h sel hsel o ho

theorem insertAt_append (s a b : Text) : insertAt s (a ++ b) a.byteSize = a ++ s ++ b := by
  rw [insertAt, Text.splitAtByte?_byteSize]

/-- Serving the offsets last one first comes to the same as serving them first one first, because an
insertion moves only what lies behind it. -/
theorem foldr_insertAt {start : Nat} {t' : Text} (h : Text.Inserted s start offsets t t')
    (before : Text) (hbefore : before.byteSize = start) :
    offsets.foldr (fun o text => insertAt s text o) (before ++ t) = before ++ t' := by
  induction h generalizing before with
  | none => rfl
  | @next start offsets a t t' h ih =>
    have hsize : (before ++ a).byteSize = start + a.byteSize := by
      rw [Text.byteSize_append, hbefore]
    rw [List.foldr_cons, ← List.append_assoc, ih _ hsize, ← hsize, insertAt_append]
    simp only [List.append_assoc]

theorem pairwise_lastFirst (offsets : List Nat) :
    (offsets.mergeSort fun a b => decide (b ≤ a)).Pairwise fun a b => b ≤ a := by
  have htrans : ∀ a b c : Nat,
      decide (b ≤ a) = true → decide (c ≤ b) = true → decide (c ≤ a) = true := by
    simp only [decide_eq_true_eq]
    omega
  have htotal : ∀ a b : Nat, (decide (b ≤ a) || decide (a ≤ b)) = true := by
    simp only [Bool.or_eq_true, decide_eq_true_eq]
    omega
  simpa only [decide_eq_true_eq] using List.pairwise_mergeSort htrans htotal offsets

theorem exists_insertAll (b : Buffer) {offsets : List Nat} (s : Text)
    (h : ∀ o ∈ offsets, b.text.isBoundary o = true) :
    ∃ sorted t', sorted.Perm offsets ∧ Text.Inserted s 0 sorted b.text t' ∧
      b.insertAll offsets s = .ok ⟨t', b.selections.map (Selection.map (shift offsets s))⟩ := by
  have hdescending := pairwise_lastFirst offsets
  have hperm := List.mergeSort_perm offsets fun a b => decide (b ≤ a)
  generalize hlast : (offsets.mergeSort fun a b => decide (b ≤ a)) = lastFirst at hdescending hperm
  have hplaces : ∀ o ∈ lastFirst.reverse, ∃ x y, b.text = x ++ y ∧ 0 + x.byteSize = o := by
    intro o ho
    obtain ⟨x, y, heq, hx⟩ :=
      Text.isBoundary_iff.1 (h o (hperm.mem_iff.1 (List.mem_reverse.1 ho)))
    exact ⟨x, y, heq, by rw [Nat.zero_add, hx]⟩
  obtain ⟨t', ht'⟩ := Text.exists_inserted s (List.pairwise_reverse.2 hdescending) hplaces
  refine ⟨lastFirst.reverse, t', (List.reverse_perm _).trans hperm, ht', ?_⟩
  have hfold : lastFirst.foldl (insertAt s) b.text = t' := by
    rw [← List.foldr_reverse]
    exact foldr_insertAt ht' [] rfl
  unfold insertAll
  rw [check_eq_ok.2 h, hlast]
  change Except.ok (Buffer.mk (lastFirst.foldl (insertAt s) b.text) _) = _
  rw [hfold]

theorem insertAll_eq_ok (b : Buffer) {offsets : List Nat} (s : Text)
    (h : ∀ o ∈ offsets, b.text.isBoundary o = true) :
    b.insertAll offsets s = .ok
      ⟨Text.withCopies (fun before _ => offsets.count before.byteSize) s [] b.text,
        b.selections.map (Selection.map (shift offsets s))⟩ := by
  obtain ⟨sorted, t', hperm, hinserted, heq⟩ := b.exists_insertAll s h
  rw [heq, Text.Inserted.eq_withCopies [] hinserted]
  simp only [hperm.count_eq]

theorem insertAll_eq_ok_iff {b b' : Buffer} : b.insertAll offsets s = .ok b' ↔
    (∀ o ∈ offsets, b.text.isBoundary o = true) ∧
      ⟨Text.withCopies (fun a _ => offsets.count a.byteSize) s [] b.text,
        b.selections.map (Selection.map (shift offsets s))⟩ = b' := by
  constructor
  · intro h
    obtain ⟨⟨⟩, hcheck, -⟩ := Attempt.bind_eq_ok.1 h
    have hvalid := check_eq_ok.1 hcheck
    exact ⟨hvalid, Except.ok.inj ((b.insertAll_eq_ok s hvalid).symm.trans h)⟩
  · rintro ⟨hvalid, rfl⟩
    exact b.insertAll_eq_ok s hvalid

end Buffer

end StyleVars
