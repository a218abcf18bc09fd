import Mathlib.Data.List.TakeWhile
import StyleVars.Document.Position
import StyleVars.Proofs.Document.Insertion

namespace StyleVars.Position

/-- A line ends between two parts of a text, and the carriage return in front of it ends with it. -/
def IsBehindReturn (before after : Text) : Prop :=
  before.getLast? = some '\r' ∧ after.headD '\n' = '\n'

instance (before after : Text) : Decidable (IsBehindReturn before after) :=
  inferInstanceAs (Decidable (_ ∧ _))

/-- The position of the place between two parts of a text. The place behind a carriage return that
ends with its line has none. -/
def between? (before after : Text) : Option Position :=
  if IsBehindReturn before after then none
  else some ⟨before.count '\n' + 1, (before.reverse.takeWhile (· != '\n')).length + 1⟩

variable {before after lines line rest t : Text} {n offset : Nat}

/-- The text holds whole lines only. -/
def Whole (lines : Text) : Prop := ∀ c ∈ lines.getLast?, c = '\n'

theorem Whole.eq_nil (h : Whole lines) (hcount : lines.count '\n' = 0) : lines = [] := by
  obtain rfl | ⟨x, c, rfl⟩ := List.eq_nil_or_concat lines
  · rfl
  · rw [List.concat_eq_append] at h hcount
    obtain rfl := h c (by simp)
    simp at hcount

theorem Whole.of_cons {c : Char} (h : Whole (c :: lines)) : Whole lines := by
  intro d hd
  cases lines with
  | nil => cases hd
  | cons e lines => exact h d (by rwa [List.getLast?_cons_cons])

theorem Whole.cons {c : Char} (h : Whole lines) (hc : lines = [] → c = '\n') :
    Whole (c :: lines) := by
  intro d hd
  cases lines with
  | nil =>
    obtain rfl : c = d := by simpa using hd
    exact hc rfl
  | cons e lines =>
    rw [List.getLast?_cons_cons] at hd
    exact h d hd

theorem dropLines_eq_some : dropLines n t = some (offset, rest) ↔
    ∃ lines, t = lines ++ rest ∧ lines.byteSize = offset ∧ lines.count '\n' = n ∧ Whole lines := by
  fun_induction dropLines n t generalizing offset rest with
  | case1 t =>
    constructor
    · intro h
      cases h
      exact ⟨[], rfl, rfl, rfl, nofun⟩
    · rintro ⟨lines, rfl, rfl, hcount, hwhole⟩
      rw [hwhole.eq_nil hcount]
      rfl
  | case2 n =>
    constructor
    · nofun
    · rintro ⟨lines, heq, -, hcount, -⟩
      rw [(List.append_eq_nil_iff.1 heq.symm).1] at hcount
      cases hcount
  | case3 n c t ih =>
    have hcount {x : Text} : (c :: x).count '\n' = n + 1 ↔
        x.count '\n' = if c = '\n' then n else n + 1 := by
      by_cases hc : c = '\n' <;> simp [hc]
    rw [Option.map_eq_some_iff]
    constructor
    · rintro ⟨⟨m, rest'⟩, h, heq⟩
      obtain ⟨rfl, rfl⟩ := Prod.mk.inj heq
      obtain ⟨lines, rfl, rfl, hlines, hwhole⟩ := ih.1 h
      refine ⟨c :: lines, rfl, rfl, hcount.2 hlines, hwhole.cons fun hnil => ?_⟩
      by_contra hc
      rw [hnil, if_neg hc] at hlines
      cases hlines
    · rintro ⟨lines, heq, rfl, hlines, hwhole⟩
      cases lines with
      | nil => cases hlines
      | cons d lines =>
        obtain ⟨rfl, rfl⟩ := List.cons.inj heq
        exact ⟨_, ih.2 ⟨lines, rfl, rfl, hcount.1 hlines, hwhole.of_cons⟩, rfl⟩

theorem exists_lines (before : Text) :
    ∃ lines line, before = lines ++ line ∧ Whole lines ∧ '\n' ∉ line := by
  refine ⟨(before.reverse.dropWhile (· != '\n')).reverse,
    (before.reverse.takeWhile (· != '\n')).reverse, ?_, fun c hc => ?_, fun hmem => ?_⟩
  · rw [← List.reverse_append, List.takeWhile_append_dropWhile, List.reverse_reverse]
  · have hnot := List.head?_dropWhile_not (· != '\n') before.reverse
    rw [List.getLast?_reverse] at hc
    rw [Option.mem_def.1 hc] at hnot
    simpa using hnot
  · have hne := List.mem_takeWhile_imp (List.mem_reverse.1 hmem)
    simp at hne

theorem takeWhile_reverse_append (hlines : Whole lines) (hline : '\n' ∉ line) :
    (lines ++ line).reverse.takeWhile (· != '\n') = line.reverse := by
  have hkeep : ∀ c ∈ line.reverse, (c != '\n') = true := fun c hc => by
    simp only [bne_iff_ne, ne_eq]
    rintro rfl
    exact hline (List.mem_reverse.1 hc)
  rw [List.reverse_append, List.takeWhile_append_of_pos hkeep]
  obtain rfl | ⟨x, c, rfl⟩ := List.eq_nil_or_concat lines
  · simp
  · rw [List.concat_eq_append] at hlines ⊢
    obtain rfl := hlines c (by simp)
    simp

theorem isBehindReturn_append (hlines : Whole lines) :
    IsBehindReturn (lines ++ line) after ↔ IsBehindReturn line after := by
  refine and_congr_left fun _ => ?_
  rw [List.getLast?_append]
  cases hlast : line.getLast? with
  | some c => rfl
  | none =>
    rw [Option.none_or]
    refine ⟨fun h => absurd (hlines _ h) (by decide), nofun⟩

theorem between?_append (hlines : Whole lines) (hline : '\n' ∉ line) :
    between? (lines ++ line) after =
      if IsBehindReturn line after then none
      else some ⟨lines.count '\n' + 1, line.length + 1⟩ := by
  rw [between?, takeWhile_reverse_append hlines hline, List.count_append,
    List.count_eq_zero.2 hline, List.length_reverse, Nat.add_zero]
  simp only [isBehindReturn_append hlines]

theorem newline_notMem_firstLine (t : Text) : '\n' ∉ firstLine t := by
  have hline : '\n' ∉ t.takeWhile (· != '\n') := fun h => by
    simpa using List.mem_takeWhile_imp h
  unfold firstLine
  intro h
  by_cases hlast : (t.takeWhile (· != '\n')).getLast? = some '\r'
  · rw [if_pos hlast] at h
    exact hline (List.dropLast_subset _ h)
  · rw [if_neg hlast] at h
    exact hline h

theorem firstLine_prefix (t : Text) : firstLine t <+: t := by
  have hline : t.takeWhile (· != '\n') <+: t := List.takeWhile_prefix _
  unfold firstLine
  by_cases hlast : (t.takeWhile (· != '\n')).getLast? = some '\r'
  · rw [if_pos hlast]
    exact (List.dropLast_prefix _).trans hline
  · rwa [if_neg hlast]

theorem length_le_firstLine (hline : '\n' ∉ line) :
    line.length ≤ (firstLine (line ++ after)).length ↔ ¬ IsBehindReturn line after := by
  have hkeep : ∀ c ∈ line, (c != '\n') = true := fun c hc => by
    simp only [bne_iff_ne, ne_eq]
    rintro rfl
    exact hline hc
  have htake : (line ++ after).takeWhile (· != '\n') = line ++ after.takeWhile (· != '\n') :=
    List.takeWhile_append_of_pos hkeep
  have hfirst : firstLine (line ++ after) =
      if (line ++ after.takeWhile (· != '\n')).getLast? = some '\r' then
        (line ++ after.takeWhile (· != '\n')).dropLast
      else line ++ after.takeWhile (· != '\n') := by
    rw [← htake]
    rfl
  rw [hfirst]
  by_cases hend : after.headD '\n' = '\n'
  · have hnone : after.takeWhile (· != '\n') = [] := by
      cases after with
      | nil => rfl
      | cons c after =>
        obtain rfl : c = '\n' := hend
        rfl
    simp only [hnone, List.append_nil, IsBehindReturn]
    by_cases hlast : line.getLast? = some '\r'
    · have hpos : 0 < line.length := List.length_pos_iff.2 fun hnil => by simp [hnil] at hlast
      rw [if_pos hlast, List.length_dropLast]
      exact ⟨fun h => by omega, fun h => absurd ⟨hlast, hend⟩ h⟩
    · rw [if_neg hlast]
      exact ⟨fun _ h => hlast h.1, fun _ => Nat.le_refl _⟩
  · have hpos : 0 < (after.takeWhile (· != '\n')).length := by
      cases after with
      | nil => exact absurd rfl hend
      | cons c after =>
        have hc : c ≠ '\n' := hend
        simp [hc]
    refine ⟨fun _ h => hend h.2, fun _ => ?_⟩
    split
    · rw [List.length_dropLast, List.length_append]
      omega
    · rw [List.length_append]
      omega

theorem offsetIn?_eq_some_iff_dropLines {p : Position} : p.offsetIn? t = some offset ↔
    p.line ≠ 0 ∧ p.column ≠ 0 ∧ ∃ start rest, dropLines (p.line - 1) t = some (start, rest) ∧
      p.column - 1 ≤ (firstLine rest).length ∧
      start + Text.byteSize ((firstLine rest).take (p.column - 1)) = offset := by
  unfold offsetIn?
  by_cases hzero : p.line = 0 ∨ p.column = 0
  · rw [if_pos hzero]
    exact ⟨nofun, fun h => absurd hzero (not_or.2 ⟨h.1, h.2.1⟩)⟩
  · rw [if_neg hzero]
    simp only [Option.bind_eq_bind, Option.bind_eq_some_iff, Option.ite_none_right_eq_some,
      Option.some.injEq, Prod.exists, not_or] at hzero ⊢
    exact ⟨fun h => ⟨hzero.1, hzero.2, h⟩, fun h => h.2.2⟩

theorem offsetIn?_eq_some {p : Position} : p.offsetIn? t = some offset ↔
    ∃ before after, t = before ++ after ∧ between? before after = some p ∧
      before.byteSize = offset := by
  rw [offsetIn?_eq_some_iff_dropLines]
  constructor
  · rintro ⟨hn, hcolumn, start, rest, hdrop, hle, rfl⟩
    obtain ⟨lines, rfl, rfl, hcount, hwhole⟩ := dropLines_eq_some.1 hdrop
    obtain ⟨more, hmore⟩ := firstLine_prefix rest
    have hnewline := newline_notMem_firstLine rest
    generalize hfirst : firstLine rest = first at hle hmore hnewline ⊢
    have hlen : (first.take (p.column - 1)).length = p.column - 1 := List.length_take_of_le hle
    have hrest : first.take (p.column - 1) ++ (first.drop (p.column - 1) ++ more) = rest := by
      rw [← List.append_assoc, List.take_append_drop, hmore]
    have hline : '\n' ∉ first.take (p.column - 1) := fun h => hnewline (List.mem_of_mem_take h)
    have hend :
        ¬ IsBehindReturn (first.take (p.column - 1)) (first.drop (p.column - 1) ++ more) := by
      rwa [← length_le_firstLine hline, hrest, hfirst, hlen]
    refine ⟨lines ++ first.take (p.column - 1), first.drop (p.column - 1) ++ more, ?_, ?_, ?_⟩
    · rw [List.append_assoc, hrest]
    · rw [between?_append hwhole hline, if_neg hend, hcount, hlen,
        Nat.sub_add_cancel (Nat.pos_of_ne_zero hn), Nat.sub_add_cancel (Nat.pos_of_ne_zero hcolumn)]
    · rw [Text.byteSize_append]
  · rintro ⟨before, after, rfl, hbetween, rfl⟩
    obtain ⟨lines, line, rfl, hwhole, hline⟩ := exists_lines before
    rw [between?_append hwhole hline, Option.ite_none_left_eq_some] at hbetween
    obtain ⟨hend, hp⟩ := hbetween
    obtain rfl := Option.some.inj hp
    have hdrop : dropLines (lines.count '\n') (lines ++ line ++ after) =
        some (lines.byteSize, line ++ after) :=
      dropLines_eq_some.2 ⟨lines, List.append_assoc _ _ _, rfl, rfl, hwhole⟩
    have hle := (length_le_firstLine hline).2 hend
    have htake : (firstLine (line ++ after)).take line.length = line := by
      obtain ⟨more, hmore⟩ := firstLine_prefix (line ++ after)
      rw [← List.take_append_of_le_length hle, hmore, List.take_left]
    refine ⟨Nat.succ_ne_zero _, Nat.succ_ne_zero _, lines.byteSize, line ++ after, hdrop, hle, ?_⟩
    rw [Nat.add_sub_cancel, htake, Text.byteSize_append]

/-- The text has a place with this position. -/
def IsIn (p : Position) (t : Text) : Prop :=
  ∃ before after, t = before ++ after ∧ between? before after = some p

theorem isIn_iff {p : Position} : p.IsIn t ↔ ∃ offset, p.offsetIn? t = some offset := by
  simp only [offsetIn?_eq_some]
  constructor
  · rintro ⟨before, after, heq, hp⟩
    exact ⟨_, before, after, heq, hp, rfl⟩
  · rintro ⟨_, before, after, heq, hp, -⟩
    exact ⟨before, after, heq, hp⟩

theorem eq_byteSize_iff {p : Position} (h : p.offsetIn? (before ++ after) = some offset) :
    offset = before.byteSize ↔ between? before after = some p := by
  constructor
  · intro hoffset
    obtain ⟨x, y, heq, hp, hx⟩ := offsetIn?_eq_some.1 h
    have hsplit := Text.splitAtByte?_byteSize x y
    rw [← heq, hx, hoffset, Text.splitAtByte?_byteSize] at hsplit
    obtain ⟨rfl, rfl⟩ := Prod.mk.inj (Option.some.inj hsplit)
    exact hp
  · intro hp
    have hfound := offsetIn?_eq_some.2 ⟨before, after, rfl, hp, rfl⟩
    exact Option.some.inj (h.symm.trans hfound)

end StyleVars.Position
