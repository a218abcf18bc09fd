import Mathlib.Order.Monotone.Basic
import StyleVars.Proofs.Document.Edits

namespace StyleVars

namespace Text

variable {s x y : Text} {copies : Text → Nat}

theorem withCopies_behind (copies : Text → Nat) (s x before y : Text) :
    withCopies (fun a _ => copies (x ++ a)) s before y =
      withCopies (fun a _ => copies a) s (x ++ before) y := by
  induction y generalizing before with
  | nil => rfl
  | cons c y ih => rw [withCopies, withCopies, ih, List.append_assoc]

theorem withCopies_parts (copies : Text → Nat) (s before x y : Text) :
    withCopies (fun a _ => copies a) s before (x ++ y) =
      withCopies (fun a _ => copies a) s before x ++
        withCopies (fun a _ => if a = [] then 0 else copies (before ++ x ++ a)) s [] y := by
  induction x generalizing before with
  | cons c x ih =>
    rw [List.cons_append, withCopies, withCopies, ih]
    simp only [List.append_assoc, List.cons_append, List.nil_append]
  | nil =>
    rw [List.nil_append, List.append_nil]
    cases y with
    | nil => simp [withCopies]
    | cons c y =>
      have hrest : withCopies (fun a _ => if a = [] then 0 else copies (before ++ a)) s [c] y =
          withCopies (fun a _ => copies a) s (before ++ [c]) y := by
        rw [← withCopies_behind]
        exact withCopies_congr fun a b _ => if_neg (by simp)
      simp only [withCopies, if_pos, List.nil_append, hrest, List.replicate_zero,
        List.flatten_nil]

end Text

theorem Selection.isEmpty_map {f : Nat → Nat} (hf : f.Injective) (sel : Selection) :
    (sel.map f).isEmpty = sel.isEmpty := by
  have hiff := hf.eq_iff (a := sel.anchor) (b := sel.active)
  simp [Selection.map, Selection.isEmpty, hiff]

namespace Buffer

variable {b b' : Buffer} {s t front back : Text} {offsets : List Nat} {edit : Edit}

theorem shift_strictMono (offsets : List Nat) (s : Text) : StrictMono (shift offsets s) := by
  intro p q hpq
  have hcount : offsets.countP (· ≤ p) ≤ offsets.countP (· ≤ q) := by
    refine List.countP_mono_left fun o _ ho => ?_
    simp only [decide_eq_true_eq] at ho ⊢
    omega
  have hmul := Nat.mul_le_mul_left s.byteSize hcount
  unfold shift
  omega

def offsetsUpTo (place : Nat) (offsets : List Nat) : List Nat := offsets.filter (· ≤ place)

def offsetsBehind (place : Nat) (offsets : List Nat) : List Nat :=
  (offsets.filter (place < ·)).map (· - place)

theorem isBoundary_offsetsUpTo (h : ∀ o ∈ offsets, (front ++ back).isBoundary o = true) :
    ∀ o ∈ offsetsUpTo front.byteSize offsets, front.isBoundary o = true := by
  intro o ho
  obtain ⟨ho, hle⟩ := List.mem_filter.1 ho
  obtain ⟨x, y, heq, rfl⟩ := Text.isBoundary_iff.1 (h o ho)
  obtain ⟨between, rfl, -⟩ := Text.exists_of_byteSize_le heq.symm (of_decide_eq_true hle)
  exact Text.isBoundary_iff.2 ⟨x, between, rfl, rfl⟩

theorem isBoundary_offsetsBehind (h : ∀ o ∈ offsets, (front ++ back).isBoundary o = true) :
    ∀ o ∈ offsetsBehind front.byteSize offsets, back.isBoundary o = true := by
  intro o' ho'
  obtain ⟨o, ho, rfl⟩ := List.mem_map.1 ho'
  obtain ⟨ho, hlt⟩ := List.mem_filter.1 ho
  obtain ⟨x, y, heq, rfl⟩ := Text.isBoundary_iff.1 (h o ho)
  obtain ⟨between, rfl, rfl⟩ := Text.exists_of_byteSize_le heq (of_decide_eq_true hlt).le
  exact Text.isBoundary_iff.2 ⟨between, y, rfl, by simp⟩

theorem count_offsetsUpTo {o place : Nat} (h : o ≤ place) :
    (offsetsUpTo place offsets).count o = offsets.count o :=
  List.count_filter (by simpa using h)

theorem count_offsetsBehind (o place : Nat) :
    (offsetsBehind place offsets).count o = if o = 0 then 0 else offsets.count (place + o) := by
  rw [offsetsBehind, List.count, List.countP_map, List.countP_filter]
  split
  case isTrue ho =>
    refine List.countP_eq_zero.2 fun p _ hp => ?_
    simp only [Function.comp, Bool.and_eq_true, beq_iff_eq, decide_eq_true_eq] at hp
    omega
  case isFalse ho =>
    refine List.countP_congr fun p _ => ?_
    simp only [Function.comp, Bool.and_eq_true, beq_iff_eq, decide_eq_true_eq]
    omega

theorem insertAll_halves (h : ∀ o ∈ offsets, (front ++ back).isBoundary o = true) (s : Text) :
    ∃ front' back',
      insertAll { text := front } (offsetsUpTo front.byteSize offsets) s =
        .ok { text := front' } ∧
      insertAll { text := back } (offsetsBehind front.byteSize offsets) s =
        .ok { text := back' } ∧
      Text.withCopies (fun a _ => offsets.count a.byteSize) s [] (front ++ back) =
        front' ++ back' ∧
      front'.byteSize = shift offsets s front.byteSize := by
  have hfront := isBoundary_offsetsUpTo h
  refine ⟨_, _, insertAll_eq_ok { text := front } s hfront,
    insertAll_eq_ok { text := back } s (isBoundary_offsetsBehind h), ?_, ?_⟩
  · -- The copies at the place itself go to the half in front of it.
    rw [Text.withCopies_parts, List.nil_append]
    congr 1
    · refine Text.withCopies_congr ?_
      rintro x y rfl
      refine (count_offsetsUpTo ?_).symm
      simp
    · refine Text.withCopies_congr fun x y _ => ?_
      have hnil : x.byteSize = 0 ↔ x = [] :=
        ⟨Text.eq_nil_of_byteSize_eq_zero, fun hx => by rw [hx, Text.byteSize_nil]⟩
      rw [List.nil_append, count_offsetsBehind, Text.byteSize_append]
      simp only [hnil]
  · rw [byteSize_withCopies hfront, shift, List.countP_eq_length_filter]
    rfl

theorem isBoundary_shift {o : Nat} (h : ∀ o ∈ offsets, t.isBoundary o = true)
    (ho : t.isBoundary o = true) (s : Text) :
    (Text.withCopies (fun a _ => offsets.count a.byteSize) s [] t).isBoundary
      (shift offsets s o) = true := by
  obtain ⟨front, back, rfl, rfl⟩ := Text.isBoundary_iff.1 ho
  obtain ⟨front', back', -, -, htext, hsize⟩ := insertAll_halves h s
  exact Text.isBoundary_iff.2 ⟨front', back', htext, hsize⟩

/-- Both ends of every selection lie between two characters. -/
def Anchored (b : Buffer) : Prop :=
  ∀ sel ∈ b.selections, ∀ o ∈ sel.ends, b.text.isBoundary o = true

theorem Anchored.insertAll (hb : b.Anchored) (h : b.insertAll offsets s = .ok b') :
    b'.Anchored := by
  obtain ⟨hvalid, rfl⟩ := insertAll_eq_ok_iff.1 h
  intro sel' hsel' o' ho'
  obtain ⟨sel, hsel, rfl⟩ := List.mem_map.1 hsel'
  obtain ⟨o, ho, rfl⟩ : ∃ o ∈ sel.ends, shift offsets s o = o' := List.mem_map.1 ho'
  exact isBoundary_shift hvalid (hb sel hsel o ho) s

theorem Anchored.perform (hb : b.Anchored) (edit : Edit) : (b.perform edit).2.Anchored := by
  cases hedited : b.edited edit with
  | error e =>
    rw [perform_of_error hedited]
    exact hb
  | ok b' =>
    rw [perform_of_ok hedited]
    cases edit with
    | select selections =>
      obtain ⟨hvalid, rfl⟩ := select_eq_ok.1 hedited
      exact hvalid
    | insertAll offsets inserted => exact hb.insertAll hedited
    | insertReference property => exact hb.insertAll hedited

def after (b : Buffer) : List Edit → Buffer
  | [] => b
  | edit :: rest => after (b.perform edit).2 rest

theorem Anchored.after (hb : b.Anchored) (edits : List Edit) : (b.after edits).Anchored := by
  induction edits generalizing b with
  | nil => exact hb
  | cons edit rest ih => exact ih (hb.perform edit)

/-- What holds of the selections after any edits, failed ones included. Every end lies between two
characters. The next insertion can be followed at each place of the text: what stands before the
place gets the insertions up to it, what stands behind gets the later ones, and the place is then
where the two meet. No two places change their order or fall together, and none of the selections
moves beyond the text. -/
theorem selections_follow_insertions (t : Text) (edits : List Edit) :
    let b := Buffer.after { text := t } edits
    (∀ sel ∈ b.selections, ∀ o ∈ sel.ends,
      b.text.isBoundary o = true ∧ o ≤ b.text.byteSize) ∧
    ∀ offsets s b', b.insertAll offsets s = .ok b' →
      b'.selections = b.selections.map (Selection.map (shift offsets s)) ∧
      (∀ before after, b.text = before ++ after → ∃ before' after',
        insertAll { text := before } (offsetsUpTo before.byteSize offsets) s =
          .ok { text := before' } ∧
        insertAll { text := after } (offsetsBehind before.byteSize offsets) s =
          .ok { text := after' } ∧
        b'.text = before' ++ after' ∧ before'.byteSize = shift offsets s before.byteSize) ∧
      StrictMono (shift offsets s) ∧
      ∀ sel ∈ b.selections, (sel.map (shift offsets s)).isEmpty = sel.isEmpty ∧
        ∀ o ∈ sel.ends, shift offsets s o ≤ b'.text.byteSize := by
  intro b
  have hb : b.Anchored := Anchored.after (fun _ h => absurd h List.not_mem_nil) edits
  have hle {text : Text} {o : Nat} (h : text.isBoundary o = true) : o ≤ text.byteSize := by
    obtain ⟨x, y, rfl, rfl⟩ := Text.isBoundary_iff.1 h
    simp
  refine ⟨fun sel hsel o ho => ⟨hb sel hsel o ho, hle (hb sel hsel o ho)⟩,
    fun offsets s b' hinsert => ?_⟩
  obtain ⟨hvalid, rfl⟩ := insertAll_eq_ok_iff.1 hinsert
  refine ⟨rfl, fun before after htext => ?_, shift_strictMono offsets s, fun sel hsel => ?_⟩
  · rw [htext] at hvalid ⊢
    exact insertAll_halves hvalid s
  · exact ⟨Selection.isEmpty_map (shift_strictMono offsets s).injective sel, fun o ho =>
      hle (isBoundary_shift hvalid (hb sel hsel o ho) s)⟩

theorem selections_follow_insertions_backwards :
    let edits : List Edit := [.select [⟨2, 2⟩, ⟨3, 0⟩], .insertAll [0, 1] ['-']]
    let b := Buffer.after { text := ['é', 'x'] } edits
    let b' : Buffer := ⟨['é', '-', '-', 'x'], [⟨4, 4⟩, ⟨5, 0⟩]⟩
    b.insertAll [2, 2] ['-'] = .ok b' ∧
    b'.selections = b.selections.map (Selection.map (shift [2, 2] ['-'])) ∧
    (∃ before' after', b'.text = before' ++ after' ∧ before'.byteSize = shift [2, 2] ['-'] 2) ∧
    (Selection.map (shift [2, 2] ['-']) ⟨3, 0⟩).isEmpty = false := by
  intro edits b b'
  have hinsert : b.insertAll [2, 2] ['-'] = .ok b' :=
    insertAll_eq_ok_iff.2 ⟨by decide +kernel, by decide +kernel⟩
  obtain ⟨hselections, hplaces, -, hempty⟩ :=
    (selections_follow_insertions ['é', 'x'] edits).2 [2, 2] ['-'] b' hinsert
  obtain ⟨before', after', -, -, htext, hsize⟩ := hplaces ['é'] ['x'] (by decide +kernel)
  exact ⟨hinsert, hselections, ⟨before', after', htext, hsize⟩,
    (hempty ⟨3, 0⟩ (by decide +kernel)).1⟩

end Buffer

end StyleVars
