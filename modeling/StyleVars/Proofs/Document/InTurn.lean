import Mathlib.Data.List.Count
import StyleVars.Proofs.Document.Selections

namespace StyleVars

namespace Text

variable {put put' more : Nat → Text} {s t x y : Text} {start start' o : Nat}

def filled (put : Nat → Text) (start : Nat) : Text → Text
  | [] => put start
  | c :: t => put start ++ c :: filled put (start + c.utf8Size) t

/-- The place that an offset tells lies directly behind a copy of `s`. -/
def IsBehind (t s : Text) (o : Nat) : Prop := ∃ x y, t = x ++ s ++ y ∧ (x ++ s).byteSize = o

theorem filled_eq_self (h : ∀ o, put o = []) (start : Nat) (t : Text) :
    filled put start t = t := by
  induction t generalizing start with
  | nil => exact h start
  | cons c t ih =>
    rw [filled, h, ih]
    rfl

theorem filled_append_cons (put : Nat → Text) (start : Nat) (x : Text) (c : Char) (y : Text) :
    filled put start (x ++ c :: y) =
      filled put start x ++ c :: filled put (start + x.byteSize + c.utf8Size) y := by
  induction x generalizing start with
  | nil => rfl
  | cons d x ih =>
    rw [List.cons_append, filled, ih, filled, byteSize_cons]
    simp only [List.append_assoc, List.cons_append, Nat.add_assoc]

theorem exists_filled_eq (put : Nat → Text) (start : Nat) (x : Text) :
    ∃ x', filled put start x = x' ++ put (start + x.byteSize) := by
  obtain rfl | ⟨x, c, rfl⟩ := List.eq_nil_or_concat x
  · exact ⟨[], rfl⟩
  · rw [List.concat_eq_append, filled_append_cons, byteSize_append, ← Nat.add_assoc]
    exact ⟨filled put start x ++ [c], by simp [filled]⟩

theorem filled_prefix (put : Nat → Text) (start : Nat) (x y : Text) :
    filled put start x <+: filled put start (x ++ y) := by
  cases y with
  | nil => simp
  | cons c y =>
    rw [filled_append_cons]
    exact List.prefix_append _ _

theorem byteSize_put_le (put : Nat → Text) (start : Nat) (x : Text) :
    (put start).byteSize ≤ (filled put start x).byteSize := by
  obtain ⟨z, hz⟩ := filled_prefix put start [] x
  rw [List.nil_append, filled] at hz
  rw [← hz, byteSize_append]
  exact Nat.le_add_right _ _

theorem filled_append (h : ∀ o, start ≤ o → o < start + x.byteSize → put o = []) :
    filled put start (x ++ y) = x ++ filled put (start + x.byteSize) y := by
  induction x generalizing start with
  | nil => rfl
  | cons c x ih =>
    have hpos := c.utf8Size_pos
    rw [byteSize_cons] at h ⊢
    rw [List.cons_append, filled, h start (Nat.le_refl _) (by omega), ih, Nat.add_assoc]
    · rfl
    · intro o hle hlt
      exact h o (by omega) (by omega)

theorem eq_nil_of_lt_put
    (hother : ∀ o, start' ≤ o → o ≤ start' + (filled put start t).byteSize → put' o ≠ [] →
      ∃ x y, t = x ++ y ∧ o = start' + (filled put start x).byteSize)
    (hle : start' ≤ o) (hlt : o < start' + (put start).byteSize) : put' o = [] := by
  by_contra hne
  have hstart := byteSize_put_le put start t
  obtain ⟨x, y, -, rfl⟩ := hother o hle (by omega) hne
  have hx := byteSize_put_le put start x
  omega

theorem filled_filled
    (hend : ∀ x y, t = x ++ y →
      put' (start' + (filled put start x).byteSize) = more (start + x.byteSize))
    (hother : ∀ o, start' ≤ o → o ≤ start' + (filled put start t).byteSize → put' o ≠ [] →
      ∃ x y, t = x ++ y ∧ o = start' + (filled put start x).byteSize) :
    filled put' start' (filled put start t) = filled (fun o => put o ++ more o) start t := by
  induction t generalizing start start' with
  | nil =>
    have hhere : put' (start' + (put start).byteSize) = more start := hend [] [] rfl
    have happend := filled_append (y := []) fun o hle hlt => eq_nil_of_lt_put hother hle hlt
    rw [List.append_nil] at happend
    rw [filled, happend, filled, filled, hhere]
  | cons c t ih =>
    have hhere : put' (start' + (put start).byteSize) = more start := hend [] (c :: t) rfl
    have hpos := c.utf8Size_pos
    have hsize (x : Text) : start' + (filled put start (c :: x)).byteSize =
        start' + (put start).byteSize + c.utf8Size +
          (filled put (start + c.utf8Size) x).byteSize := by
      rw [filled, byteSize_append, byteSize_cons]
      omega
    -- Nothing comes in before the end of what has been put in here first.
    rw [filled, filled_append fun o hle hlt => eq_nil_of_lt_put hother hle hlt, filled, filled,
      hhere, List.append_assoc, ih]
    · intro x y hxy
      have hcons := hend (c :: x) y (by rw [hxy]; rfl)
      rwa [hsize, byteSize_cons, ← Nat.add_assoc] at hcons
    · intro o hle hlt hne
      obtain ⟨x, y, hxy, ho⟩ := hother o (by omega) (by rw [hsize]; exact hlt) hne
      cases x with
      | nil =>
        have ho : o = start' + (put start).byteSize := ho
        omega
      | cons d x =>
        obtain ⟨rfl, rfl⟩ := List.cons.inj hxy
        exact ⟨x, y, rfl, by rw [ho, hsize]⟩

theorem withCopies_eq_filled (copies : Nat → Nat) (s before t : Text) :
    withCopies (fun x _ => copies x.byteSize) s before t =
      filled (fun o => (List.replicate (copies o) s).flatten) before.byteSize t := by
  induction t generalizing before with
  | nil => rfl
  | cons c t ih =>
    rw [withCopies, filled, ih, byteSize_append]
    rfl

end Text

namespace Buffer

def cursors (b : Buffer) : List Nat := b.selections.map Selection.active

/-- The references to some properties that a place gets, each one as often as selections have their
active end there. -/
def referencesAt (b : Buffer) (properties : List Text) (o : Nat) : Text :=
  properties.flatMap fun p => (List.replicate (b.cursors.count o) (Property.reference p)).flatten

/-- Inserts references to some properties one after the other into the document in focus. Beside the
document stand the answers of the single insertions. -/
def insertInTurn : Option Buffer → List Text → Except Error (List Bool × Option Buffer)
  | focused, [] => .ok ([], focused)
  | focused, p :: rest => do
    let (answer, focused) ← insertIntoFocused focused p
    let (answers, focused) ← insertInTurn focused rest
    pure (answer :: answers, focused)

variable {b b' : Buffer} {p s x y : Text} {properties rest : List Text} {offsets : List Nat}

theorem Anchored.isBoundary_cursors (hb : b.Anchored) :
    ∀ o ∈ b.cursors, b.text.isBoundary o = true := by
  intro o ho
  obtain ⟨sel, hsel, rfl⟩ := List.mem_map.1 ho
  exact hb sel hsel sel.active (by simp [Selection.ends])

theorem referencesAt_singleton (b : Buffer) (p : Text) : b.referencesAt [p] = fun o =>
    (List.replicate (b.cursors.count o) (Property.reference p)).flatten := by
  funext o
  simp [referencesAt]

theorem referencesAt_cons (b : Buffer) (p : Text) (rest : List Text) (o : Nat) :
    b.referencesAt (p :: rest) o = b.referencesAt [p] o ++ b.referencesAt rest o := by
  simp [referencesAt]

theorem referencesAt_concat (b : Buffer) (done : List Text) (p : Text) (o : Nat) :
    b.referencesAt (done ++ [p]) o = b.referencesAt done o ++ b.referencesAt [p] o := by
  simp [referencesAt]

theorem mem_cursors_of_referencesAt {o : Nat} (h : b.referencesAt properties o ≠ []) :
    o ∈ b.cursors := by
  by_contra hnot
  apply h
  simp [referencesAt, List.count_eq_zero.2 hnot]

theorem byteSize_filled (h : ∀ o ∈ offsets, (x ++ y).isBoundary o = true) (s : Text) :
    (Text.filled (fun o => (List.replicate (offsets.count o) s).flatten) 0 x).byteSize =
      shift offsets s x.byteSize := by
  have hcopies : Text.withCopies (fun a _ => (offsetsUpTo x.byteSize offsets).count a.byteSize) s
      [] x = Text.withCopies (fun a _ => offsets.count a.byteSize) s [] x := by
    apply Text.withCopies_congr
    rintro a z rfl
    apply count_offsetsUpTo
    simp
  have hsize := byteSize_withCopies (isBoundary_offsetsUpTo h) s
  rw [hcopies, Text.withCopies_eq_filled (offsets.count ·)] at hsize
  rw [shift, List.countP_eq_length_filter]
  exact hsize

section Insertion

variable (hb : b.Anchored)

include hb

theorem insertReference_eq_ok : b.insertReference p = .ok b' ↔
    ⟨Text.filled (b.referencesAt [p]) 0 b.text,
      b.selections.map (Selection.map (shift b.cursors (Property.reference p)))⟩ = b' := by
  have hcopies := Text.withCopies_eq_filled (b.cursors.count ·) (Property.reference p) [] b.text
  rw [Text.byteSize_nil] at hcopies
  rw [referencesAt_singleton, ← hcopies]
  constructor
  · intro h
    exact (insertAll_eq_ok_iff.1 h).2
  · intro h
    exact insertAll_eq_ok_iff.2 ⟨hb.isBoundary_cursors, h⟩

theorem byteSize_filled_referencesAt (hxy : b.text = x ++ y) (p : Text) :
    (Text.filled (b.referencesAt [p]) 0 x).byteSize =
      shift b.cursors (Property.reference p) x.byteSize := by
  have hvalid := hb.isBoundary_cursors
  rw [hxy] at hvalid
  rw [referencesAt_singleton]
  exact byteSize_filled hvalid (Property.reference p)

theorem cursors_insertReference (h : b.insertReference p = .ok b') :
    b'.cursors = b.cursors.map (shift b.cursors (Property.reference p)) := by
  obtain rfl := (insertReference_eq_ok hb).1 h
  simp [cursors, Selection.map]

theorem referencesAt_shift (h : b.insertReference p = .ok b') (rest : List Text) (o : Nat) :
    b'.referencesAt rest (shift b.cursors (Property.reference p) o) = b.referencesAt rest o := by
  -- The cursors have moved as all places have, and no two places fall together.
  have hinjective := (shift_strictMono b.cursors (Property.reference p)).injective
  unfold referencesAt
  rw [cursors_insertReference hb h, List.count_map_of_injective _ _ hinjective]

theorem filled_insertReference (h : b.insertReference p = .ok b') (hxy : b.text = x ++ y)
    (rest : List Text) :
    Text.filled (b'.referencesAt rest) 0 (Text.filled (b.referencesAt [p]) 0 x) =
      Text.filled (b.referencesAt (p :: rest)) 0 x := by
  have hmono := shift_strictMono b.cursors (Property.reference p)
  have hplace {u v : Text} (hu : b.text = u ++ v) :
      0 + (Text.filled (b.referencesAt [p]) 0 u).byteSize =
        shift b.cursors (Property.reference p) u.byteSize := by
    rw [Nat.zero_add, byteSize_filled_referencesAt hb hu]
  have hput : b.referencesAt (p :: rest) =
      fun o => b.referencesAt [p] o ++ b.referencesAt rest o := by
    funext o
    exact b.referencesAt_cons p rest o
  rw [hput]
  apply Text.filled_filled
  · rintro u v rfl
    rw [hplace (hxy.trans (List.append_assoc u v y)), referencesAt_shift hb h, Nat.zero_add]
  · intro o _ hle hne
    have ho := mem_cursors_of_referencesAt hne
    rw [cursors_insertReference hb h] at ho
    obtain ⟨cursor, hcursor, rfl⟩ := List.mem_map.1 ho
    -- The shift keeps the order, so a cursor that is found before the place was before it already.
    rw [hplace hxy, hmono.le_iff_le] at hle
    obtain ⟨u, v, huv, rfl⟩ := Text.isBoundary_iff.1 (hb.isBoundary_cursors cursor hcursor)
    obtain ⟨between, rfl, -⟩ := Text.exists_of_byteSize_le (huv.symm.trans hxy) hle
    exact ⟨u, between, rfl, (hplace huv).symm⟩

end Insertion

theorem insertInTurn_cons {focused : Option Buffer} (h : b.insertReference p = .ok b')
    {answers : List Bool} (hrest : insertInTurn (some b') rest = .ok (answers, focused)) :
    insertInTurn (some b) (p :: rest) = .ok (true :: answers, focused) := by
  have hfocused : insertIntoFocused (some b) p = .ok (true, some b') := by
    rw [insertIntoFocused, h]
    rfl
  exact Attempt.bind_eq_ok.2 ⟨(true, some b'), hfocused, Attempt.bind_eq_ok.2 ⟨_, hrest, rfl⟩⟩

/-- Where the active end of a selection goes: behind all that has been put in up to it. -/
def Follows (b : Buffer) (properties : List Text) (sel sel' : Selection) : Prop :=
  ∀ x y, b.text = x ++ y → x.byteSize = sel.active →
    sel'.active = (Text.filled (b.referencesAt properties) 0 x).byteSize

theorem exists_insertInTurn (hb : b.Anchored) (properties : List Text) :
    ∃ b', insertInTurn (some b) properties =
        .ok (List.replicate properties.length true, some b') ∧ b'.Anchored ∧
      b'.text = Text.filled (b.referencesAt properties) 0 b.text ∧
      List.Forall₂ (b.Follows properties) b.selections b'.selections := by
  induction properties generalizing b with
  | nil =>
    have hnone (x : Text) : Text.filled (b.referencesAt []) 0 x = x :=
      Text.filled_eq_self (fun _ => rfl) 0 x
    refine ⟨b, rfl, hb, (hnone b.text).symm, List.forall₂_same.2 ?_⟩
    intro sel _ x y _ hx
    rw [hnone, hx]
  | cons p rest ih =>
    have hinsert := (insertReference_eq_ok (p := p) hb).2 rfl
    obtain ⟨b', hrest, hb', htext, hselections⟩ := ih (hb.insertAll hinsert)
    refine ⟨b', insertInTurn_cons hinsert hrest, hb', ?_, ?_⟩
    · rw [htext]
      exact filled_insertReference hb hinsert (List.append_nil b.text).symm rest
    · rw [List.forall₂_map_left_iff] at hselections
      apply hselections.imp
      intro sel sel' hsel' x y hxy hx
      obtain ⟨z, hz⟩ := Text.filled_prefix (b.referencesAt [p]) 0 x y
      have hplace := byteSize_filled_referencesAt hb hxy p
      rw [hx] at hplace
      rw [← filled_insertReference hb hinsert hxy rest]
      apply hsel' _ z _ hplace
      rw [hxy, hz]

theorem Follows.isBehind {done : List Text} {sel sel' : Selection}
    (hb : b.Anchored) (hsel : sel ∈ b.selections) (h : b.Follows (done ++ [p]) sel sel') :
    (Text.filled (b.referencesAt (done ++ [p])) 0 b.text).IsBehind (Property.reference p)
      sel'.active := by
  have hmem : sel.active ∈ b.cursors := List.mem_map_of_mem hsel
  obtain ⟨x, y, hxy, hx⟩ := Text.isBoundary_iff.1 (hb.isBoundary_cursors _ hmem)
  -- A cursor stands there, so there is at least one copy, and the last one is what counts.
  obtain ⟨n, hn⟩ := Nat.exists_eq_succ_of_ne_zero (List.count_pos_iff.2 hmem).ne'
  have hlast : b.referencesAt [p] sel.active =
      (List.replicate n (Property.reference p)).flatten ++ Property.reference p := by
    simp [referencesAt_singleton, hn, List.replicate_succ']
  obtain ⟨front, hfront⟩ : ∃ front,
      Text.filled (b.referencesAt (done ++ [p])) 0 x = front ++ Property.reference p := by
    obtain ⟨front, hfront⟩ := Text.exists_filled_eq (b.referencesAt (done ++ [p])) 0 x
    rw [Nat.zero_add, hx, referencesAt_concat, hlast, ← List.append_assoc,
      ← List.append_assoc] at hfront
    exact ⟨_, hfront⟩
  obtain ⟨back, hback⟩ := Text.filled_prefix (b.referencesAt (done ++ [p])) 0 x y
  refine ⟨front, back, ?_, ?_⟩
  · rw [← hfront, hback, hxy]
  · rw [← hfront, h x y hxy hx]

theorem insertInTurn_append {focused focused' : Option Buffer} {done : List Text}
    {answers answers' : List Bool} (h : insertInTurn focused done = .ok (answers, focused'))
    {r : Option Buffer} (hrest : insertInTurn focused' rest = .ok (answers', r)) :
    insertInTurn focused (done ++ rest) = .ok (answers ++ answers', r) := by
  induction done generalizing focused answers with
  | nil =>
    cases h
    exact hrest
  | cons p done ih =>
    obtain ⟨⟨answer, next⟩, hnext, h⟩ := Attempt.bind_eq_ok.1 h
    obtain ⟨⟨more, last⟩, hmore, h⟩ := Attempt.bind_eq_ok.1 h
    cases h
    exact Attempt.bind_eq_ok.2 ⟨_, hnext, Attempt.bind_eq_ok.2 ⟨_, ih hmore, rfl⟩⟩

/-- References to some properties are inserted in turn into a buffer with valid selections. Every
insertion finds the buffer and succeeds. In the end each place has the references in this order,
each one as often as selections had their active end there, and the active ends are behind them.
After each single insertion they are behind a copy of what has just been inserted. -/
theorem insertInTurn_references (hb : b.Anchored) (properties : List Text) :
    ∃ b', insertInTurn (some b) properties =
        .ok (List.replicate properties.length true, some b') ∧
      b'.text = Text.filled (b.referencesAt properties) 0 b.text ∧
      List.Forall₂ (b.Follows properties) b.selections b'.selections ∧
      ∀ done p rest, properties = done ++ p :: rest → ∃ b₁,
        insertInTurn (some b) (done ++ [p]) =
          .ok (List.replicate (done.length + 1) true, some b₁) ∧
        insertInTurn (some b₁) rest = .ok (List.replicate rest.length true, some b') ∧
        List.Forall₂ (fun _ sel' => Text.IsBehind b₁.text (Property.reference p) sel'.active)
          b.selections b₁.selections := by
  obtain ⟨b', hrun, hb', htext, hselections⟩ := exists_insertInTurn hb properties
  refine ⟨b', hrun, htext, hselections, ?_⟩
  rintro done p rest rfl
  obtain ⟨b₁, hrun₁, hb₁, htext₁, hselections₁⟩ := exists_insertInTurn hb (done ++ [p])
  obtain ⟨b₂, hrun₂, -, -, -⟩ := exists_insertInTurn hb₁ rest
  have hall := insertInTurn_append hrun₁ hrun₂
  rw [List.append_assoc, List.singleton_append, hrun] at hall
  obtain rfl : b' = b₂ := Option.some.inj (Prod.mk.inj (Except.ok.inj hall)).2
  refine ⟨b₁, ?_, hrun₂, ?_⟩
  · simpa using hrun₁
  · have hmem : ∀ sel ∈ b.selections, sel ∈ b.selections := fun _ hsel => hsel
    apply ((List.forall₂_and_left _ _).2 ⟨hmem, hselections₁⟩).imp
    rintro sel sel' ⟨hsel, hfollows⟩
    rw [htext₁]
    exact hfollows.isBehind hb hsel

theorem insertInTurn_references_shared_end :
    let b : Buffer := ⟨['é', 'x'], [⟨0, 2⟩, ⟨3, 2⟩, ⟨3, 3⟩]⟩
    let properties : List Text := ["--a".toList, "--b".toList]
    b.Anchored ∧ ∃ b', insertInTurn (some b) properties = .ok ([true, true], some b') ∧
      b'.text = "évar(--a)var(--a)var(--b)var(--b)xvar(--a)var(--b)".toList ∧
      b'.selections.length = 3 := by
  intro b properties
  have hb : ∀ sel ∈ b.selections, ∀ o ∈ sel.ends, b.text.isBoundary o = true := by decide
  obtain ⟨b', hrun, htext, hselections, -⟩ := insertInTurn_references hb properties
  refine ⟨hb, b', hrun, ?_, hselections.length_eq.symm⟩
  rw [htext]
  decide +kernel

end Buffer

end StyleVars
