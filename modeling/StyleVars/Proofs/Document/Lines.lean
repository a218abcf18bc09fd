import Mathlib.Data.Set.Function
import StyleVars.Proofs.Document.Place
import StyleVars.Text.Decimal

namespace StyleVars

theorem Text.length_le_byteSize (t : Text) : t.length ≤ t.byteSize := by
  induction t with
  | nil => exact Nat.le_refl _
  | cons c t ih =>
    have hpos := c.utf8Size_pos
    rw [List.length_cons, byteSize_cons]
    omega

namespace Position

variable {t before between after line rest : Text} {p q : Position} {n offset offset' : Nat}

/-- The order of positions, first by line and then by column. -/
def Precedes (p q : Position) : Prop :=
  p.line < q.line ∨ p.line = q.line ∧ p.column < q.column

def lines (t : Text) : List Text := t.splitOn '\n'

def withoutReturn (line : Text) : Text :=
  if line.getLast? = some '\r' then line.dropLast else line

/-- The offsets of the places behind a carriage return that ends with its line. -/
def behindReturns (t : Text) : Set Nat :=
  {o | ∃ before after, t = before ++ after ∧ before.byteSize = o ∧ IsBehindReturn before after}

theorem not_precedes_self (p : Position) : ¬ p.Precedes p := by
  unfold Precedes
  omega

theorem Precedes.asymm (h : p.Precedes q) : ¬ q.Precedes p := by
  unfold Precedes at *
  omega

theorem between?_eq_some : between? before after = some p ↔ ¬ IsBehindReturn before after ∧
    p = ⟨before.count '\n' + 1, (before.reverse.takeWhile (· != '\n')).length + 1⟩ := by
  rw [between?, Option.ite_none_left_eq_some, Option.some.injEq, eq_comm]

theorem exists_between?_iff : (∃ p, between? before after = some p) ↔
    (before ++ after).isBoundary before.byteSize = true ∧
      before.byteSize ∉ behindReturns (before ++ after) := by
  have hboundary : (before ++ after).isBoundary before.byteSize = true :=
    Text.isBoundary_iff.2 ⟨before, after, rfl, rfl⟩
  constructor
  · rintro ⟨p, hp⟩
    refine ⟨hboundary, ?_⟩
    rintro ⟨x, y, heq, hsize, hreturn⟩
    have hsplit := Text.splitAtByte?_byteSize before after
    rw [heq, ← hsize, Text.splitAtByte?_byteSize] at hsplit
    obtain ⟨rfl, rfl⟩ := Prod.mk.inj (Option.some.inj hsplit)
    exact (between?_eq_some.1 hp).1 hreturn
  · rintro ⟨-, hnot⟩
    refine ⟨_, between?_eq_some.2 ⟨fun hreturn => hnot ?_, rfl⟩⟩
    exact ⟨before, after, rfl, rfl, hreturn⟩

theorem exists_offsetIn?_iff : (∃ p : Position, p.offsetIn? t = some offset) ↔
    t.isBoundary offset = true ∧ offset ∉ behindReturns t := by
  simp only [offsetIn?_eq_some]
  constructor
  · rintro ⟨p, before, after, rfl, hp, rfl⟩
    exact exists_between?_iff.1 ⟨p, hp⟩
  · rintro ⟨hboundary, hnot⟩
    obtain ⟨before, after, rfl, rfl⟩ := Text.isBoundary_iff.1 hboundary
    obtain ⟨p, hp⟩ := exists_between?_iff.2 ⟨hboundary, hnot⟩
    exact ⟨p, before, after, rfl, hp, rfl⟩

theorem eq_of_offsetIn? (hp : p.offsetIn? t = some offset) (hq : q.offsetIn? t = some offset) :
    p = q := by
  obtain ⟨before, after, rfl, hbefore, rfl⟩ := offsetIn?_eq_some.1 hp
  exact Option.some.inj (hbefore.symm.trans ((eq_byteSize_iff hq).1 rfl))

theorem precedes_of_append (hne : between ≠ []) (hp : between? before (between ++ after) = some p)
    (hq : between? (before ++ between) after = some q) : p.Precedes q := by
  obtain ⟨-, rfl⟩ := between?_eq_some.1 hp
  obtain ⟨-, rfl⟩ := between?_eq_some.1 hq
  -- A line feed on the way leads to a later line, and without one the columns go on.
  by_cases hnewline : '\n' ∈ between
  · left
    have hcount := List.count_pos_iff.2 hnewline
    simp only [List.count_append]
    omega
  · right
    have hkeep : ∀ c ∈ between.reverse, (c != '\n') = true := by
      intro c hc
      simp only [bne_iff_ne, ne_eq]
      rintro rfl
      exact hnewline (List.mem_reverse.1 hc)
    have hpos := List.length_pos_iff.2 hne
    rw [List.count_append, List.count_eq_zero.2 hnewline, List.reverse_append,
      List.takeWhile_append_of_pos hkeep, List.length_append, List.length_reverse]
    refine ⟨rfl, ?_⟩
    simp only
    omega

theorem precedes_of_lt (hp : p.offsetIn? t = some offset) (hq : q.offsetIn? t = some offset')
    (hlt : offset < offset') : p.Precedes q := by
  obtain ⟨before, after, rfl, hbefore, rfl⟩ := offsetIn?_eq_some.1 hp
  obtain ⟨before', after', heq, hbefore', rfl⟩ := offsetIn?_eq_some.1 hq
  obtain ⟨between, rfl, rfl⟩ := Text.exists_of_byteSize_le heq hlt.le
  refine precedes_of_append ?_ hbefore hbefore'
  rintro rfl
  simp at hlt

theorem offset_lt_iff (hp : p.offsetIn? t = some offset) (hq : q.offsetIn? t = some offset') :
    offset < offset' ↔ p.Precedes q := by
  constructor
  · exact precedes_of_lt hp hq
  · intro hprecedes
    obtain hlt | rfl | hgt := Nat.lt_trichotomy offset offset'
    · exact hlt
    · obtain rfl := eq_of_offsetIn? hp hq
      exact absurd hprecedes (not_precedes_self p)
    · exact absurd (precedes_of_lt hq hp hgt) hprecedes.asymm

theorem line_add_column_le (hp : p.offsetIn? t = some offset) :
    p.line + p.column ≤ t.byteSize + 2 := by
  obtain ⟨before, after, rfl, hp, -⟩ := offsetIn?_eq_some.1 hp
  obtain ⟨whole, line, rfl, hwhole, hline⟩ := exists_lines before
  rw [between?_append hwhole hline, Option.ite_none_left_eq_some] at hp
  obtain rfl := Option.some.inj hp.2
  have hcount : whole.count '\n' ≤ whole.length := List.count_le_length
  have hwhole := Text.length_le_byteSize whole
  have hline := Text.length_le_byteSize line
  simp only [Text.byteSize_append]
  omega

theorem lines_cons (c : Char) (t : Text) : lines (c :: t) =
    if c = '\n' then [] :: lines t else (lines t).modifyHead (List.cons c) := by
  simp [lines, List.splitOn_cons_eq_if_modifyHead]

theorem length_lines (t : Text) : (lines t).length = t.count '\n' + 1 := by
  induction t with
  | nil => rfl
  | cons c t ih =>
    rw [lines_cons]
    by_cases hc : c = '\n' <;> simp [hc, ih]

theorem getElem?_zero_lines (t : Text) : (lines t)[0]? = some (t.takeWhile (· != '\n')) := by
  induction t with
  | nil => rfl
  | cons c t ih =>
    rw [lines_cons]
    by_cases hc : c = '\n' <;> simp [hc, ih]

theorem getElem?_lines (n : Nat) (t : Text) :
    (lines t)[n]? = (dropLines n t).map fun r => r.2.takeWhile (· != '\n') := by
  fun_induction dropLines n t with
  | case1 t => exact getElem?_zero_lines t
  | case2 n => simp [lines]
  | case3 n c t ih =>
    rw [lines_cons, Option.map_map]
    change _ = (dropLines _ t).map fun r => r.2.takeWhile (· != '\n')
    rw [← ih]
    by_cases hc : c = '\n' <;> simp [hc]

theorem firstLine_eq (t : Text) : firstLine t = withoutReturn (t.takeWhile (· != '\n')) := rfl

theorem exists_offset_iff : (∃ offset, p.offsetIn? t = some offset) ↔
    ∃ n line, p.line = n + 1 ∧ (lines t)[n]? = some line ∧
      1 ≤ p.column ∧ p.column ≤ (withoutReturn line).length + 1 := by
  simp only [offsetIn?_eq_some_iff_dropLines, firstLine_eq, getElem?_lines,
    Option.map_eq_some_iff, Prod.exists]
  constructor
  · rintro ⟨offset, hline, hcolumn, start, rest, hdrop, hle, -⟩
    obtain ⟨n, hn⟩ := Nat.exists_eq_succ_of_ne_zero hline
    rw [hn, Nat.succ_sub_one] at hdrop
    exact ⟨n, _, hn, ⟨start, rest, hdrop, rfl⟩, by omega, by omega⟩
  · rintro ⟨n, line, hn, ⟨start, rest, hdrop, rfl⟩, hpos, hle⟩
    refine ⟨_, by omega, by omega, start, rest, ?_, by omega, rfl⟩
    rwa [hn, Nat.add_sub_cancel]

theorem offset_ne_of_break (hp : p.offsetIn? t = some offset)
    (ht : t = before ++ '\r' :: '\n' :: after) : offset ≠ (before ++ ['\r']).byteSize := by
  rintro rfl
  obtain ⟨-, hnot⟩ := exists_offsetIn?_iff.1 ⟨p, hp⟩
  apply hnot
  exact ⟨before ++ ['\r'], '\n' :: after, by simp [ht], rfl, by simp [IsBehindReturn]⟩

/-- The positions that are found stand for the places of a text, one for each and in their order.
Only the places behind a carriage return that ends with its line have none. Lines are counted up to
one more than there are line feeds, and columns up to one more than the line has characters, without
the carriage return at its end. In a text whose size is an index, so are these numbers. -/
theorem positions_of_places (t : Text) :
    Set.BijOn (fun p : Position => p.offsetIn? t) {p | p.offsetIn? t ≠ none}
      (some '' ({o | t.isBoundary o = true} \ behindReturns t)) ∧
    (∀ (p q : Position) (o o' : Nat), p.offsetIn? t = some o → q.offsetIn? t = some o' →
      (o < o' ↔ p.Precedes q)) ∧
    (lines t).length = t.count '\n' + 1 ∧
    (∀ p : Position, p.offsetIn? t ≠ none ↔ ∃ n line, p.line = n + 1 ∧
      (lines t)[n]? = some line ∧ 1 ≤ p.column ∧ p.column ≤ (withoutReturn line).length + 1) ∧
    (t.byteSize < Decimal.maxIndex → ∀ p : Position, p.offsetIn? t ≠ none →
      p.line ≤ Decimal.maxIndex ∧ p.column ≤ Decimal.maxIndex) ∧
    ∀ (p : Position) (o : Nat) (before after : Text), p.offsetIn? t = some o →
      t = before ++ '\r' :: '\n' :: after → o ≠ (before ++ ['\r']).byteSize := by
  have hfound (p : Position) : p.offsetIn? t ≠ none ↔ ∃ o, p.offsetIn? t = some o :=
    Option.ne_none_iff_exists'
  refine ⟨⟨?_, ?_, ?_⟩, fun p q o o' => offset_lt_iff, length_lines t, fun p => ?_,
    fun hsize p hp => ?_, fun p o before after => offset_ne_of_break⟩
  · intro p hp
    obtain ⟨o, ho⟩ := (hfound p).1 hp
    exact ⟨o, exists_offsetIn?_iff.1 ⟨p, ho⟩, ho.symm⟩
  · intro p hp q _ heq
    obtain ⟨o, ho⟩ := (hfound p).1 hp
    exact eq_of_offsetIn? ho (heq.symm.trans ho)
  · rintro _ ⟨o, ho, rfl⟩
    obtain ⟨p, hp⟩ := exists_offsetIn?_iff.2 ho
    exact ⟨p, (hfound p).2 ⟨o, hp⟩, hp⟩
  · rw [hfound]
    exact exists_offset_iff
  · obtain ⟨o, ho⟩ := (hfound p).1 hp
    have hle := line_add_column_le ho
    obtain ⟨n, line, hline, -, hcolumn, -⟩ := exists_offset_iff.1 ⟨o, ho⟩
    omega

theorem positions_of_places_three_returns :
    let t : Text := ['é', '\r', '\n', '\r', 'x', '\r']
    let p : Position := ⟨1, 2⟩
    let q : Position := ⟨2, 3⟩
    let r : Position := ⟨2, 4⟩
    p.offsetIn? t = some 2 ∧ q.offsetIn? t = some 6 ∧ (2 < 6 ↔ p.Precedes q) ∧
      r.offsetIn? t = none ∧ t.byteSize < Decimal.maxIndex ∧ q.column ≤ Decimal.maxIndex ∧
      2 ≠ Text.byteSize ['é', '\r'] := by
  intro t p q r
  obtain ⟨-, horder, -, hcolumns, hindex, hbreak⟩ := positions_of_places t
  have hp : p.offsetIn? t = some 2 := by decide
  have hq : q.offsetIn? t = some 6 := by decide
  have hsize : t.byteSize < Decimal.maxIndex := by decide
  refine ⟨hp, hq, horder p q 2 6 hp hq, ?_, hsize, (hindex hsize q (by simp [hq])).2,
    hbreak p 2 ['é'] ['\r', 'x', '\r'] hp rfl⟩
  by_contra hr
  obtain ⟨n, line, hn, hline, -, hle⟩ := (hcolumns r).1 hr
  obtain rfl : n = 1 := (Nat.succ.inj hn).symm
  obtain rfl : line = ['\r', 'x', '\r'] := (Option.some.inj hline).symm
  exact absurd hle (by decide)

end Position

end StyleVars
