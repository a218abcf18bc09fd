import StyleVars.Document.Position
import StyleVars.Proofs.Attempt
import StyleVars.Proofs.Text.Decimal

namespace StyleVars

theorem isBlank_of_isDigit {c : Char} (h : Decimal.isDigit c = true) : isBlank c = false := by
  simp only [Decimal.isDigit, Bool.and_eq_true, decide_eq_true_eq] at h
  have hlow : 48 ≤ c.toNat := UInt32.le_iff_toNat_le.1 h.1
  have hhigh : c.toNat ≤ 57 := UInt32.le_iff_toNat_le.1 h.2
  simp only [isBlank, Bool.or_eq_false_iff, Bool.and_eq_false_iff, decide_eq_false_iff_not,
    beq_eq_false_iff_ne]
  omega

theorem Decimal.Spells.not_blank {t : Text} {n : Nat} (h : Spells t n) :
    ∀ c ∈ t, isBlank c = false := by
  obtain ⟨sign, digits, rfl, hsign, -, hdigits, -⟩ := h
  intro c hc
  obtain hc | hc := List.mem_append.1 hc
  · obtain rfl | rfl := hsign
    · cases hc
    · obtain rfl := List.mem_singleton.1 hc
      decide
  · exact isBlank_of_isDigit (hdigits c hc)

namespace Position

variable {what : String} {line column part t : Text} {n : Nat} {p : Position}

/-- One part of a position: a number from one up to the largest index, with blanks around it. -/
def IsPart (part : Text) (n : Nat) : Prop :=
  (∃ before number after, part = before ++ number ++ after ∧ (∀ c ∈ before, isBlank c = true) ∧
    (∀ c ∈ after, isBlank c = true) ∧ Decimal.Spells number n) ∧ 1 ≤ n ∧ n < 2 ^ 64

theorem readPart_eq_ok : readPart what part = .ok n ↔ IsPart part n := by
  have hnumber : Decimal.Spells part.trim n ↔ ∃ before number after,
      part = before ++ number ++ after ∧ (∀ c ∈ before, isBlank c = true) ∧
        (∀ c ∈ after, isBlank c = true) ∧ Decimal.Spells number n := by
    constructor
    · intro h
      obtain ⟨before, after, hpart, hbefore, hafter⟩ := Text.exists_trim part
      exact ⟨before, part.trim, after, hpart, hbefore, hafter, h⟩
    · rintro ⟨before, number, after, rfl, hbefore, hafter, h⟩
      rwa [Text.trim_append hbefore hafter h.not_blank]
  rw [IsPart, ← hnumber]
  constructor
  · intro h
    unfold readPart at h
    split at h
    case h_1 | h_2 => cases h
    case h_3 m hne hread =>
      obtain rfl : m = n := Except.ok.inj h
      obtain ⟨hspells, hle⟩ := Decimal.read?_eq_some_iff.1 hread
      exact ⟨hspells, Nat.one_le_iff_ne_zero.2 hne, Nat.lt_of_le_pred (by decide) hle⟩
  · rintro ⟨hspells, hpos, hlt⟩
    have hread : Decimal.read? Decimal.maxIndex part.trim = some n :=
      Decimal.read?_eq_some_iff.2 ⟨hspells, Nat.le_pred_of_lt hlt⟩
    obtain ⟨m, rfl⟩ := Nat.exists_eq_add_of_le' hpos
    rw [readPart, hread]
    rfl

theorem ne_colon_of_notMem (h : ':' ∉ t) : ∀ c ∈ t, (c != ':') = true := by
  intro c hc
  rw [bne_iff_ne]
  rintro rfl
  exact h hc

theorem read_append_colon (h : ':' ∉ line) : read (line ++ ':' :: column) = .ok p ↔
    readPart "line" line = .ok p.line ∧ readPart "column" column = .ok p.column := by
  have hline := ne_colon_of_notMem h
  have hdrop : (line ++ ':' :: column).dropWhile (· != ':') = ':' :: column := by
    rw [List.dropWhile_append_of_pos hline]
    rfl
  have htake : (line ++ ':' :: column).takeWhile (· != ':') = line := by
    rw [List.takeWhile_append_of_pos hline]
    exact List.append_nil line
  rw [read, hdrop, htake]
  constructor
  · intro hread
    obtain ⟨l, hl, hread⟩ := Attempt.bind_eq_ok.1 hread
    obtain ⟨c, hc, hread⟩ := Attempt.bind_eq_ok.1 hread
    obtain rfl := Except.ok.inj hread
    exact ⟨hl, hc⟩
  · rintro ⟨hl, hc⟩
    exact Attempt.bind_eq_ok.2 ⟨_, hl, Attempt.bind_eq_ok.2 ⟨_, hc, rfl⟩⟩

theorem read_of_colon_notMem (h : ':' ∉ t) : read t = .error (.noColon t) := by
  have hdrop : t.dropWhile (· != ':') = [] := List.dropWhile_eq_nil_iff.2 (ne_colon_of_notMem h)
  rw [read, hdrop]

theorem read_eq_ok_iff : read t = .ok p ↔ ∃ line column : Text,
    t = line ++ ':' :: column ∧ ':' ∉ line ∧ IsPart line p.line ∧ IsPart column p.column := by
  constructor
  · intro h
    by_cases hcolon : ':' ∈ t
    · obtain ⟨line, column, rfl, hline⟩ := List.eq_append_cons_of_mem hcolon
      obtain ⟨hl, hc⟩ := (read_append_colon hline).1 h
      exact ⟨line, column, rfl, hline, readPart_eq_ok.1 hl, readPart_eq_ok.1 hc⟩
    · rw [read_of_colon_notMem hcolon] at h
      cases h
  · rintro ⟨line, column, rfl, hline, hl, hc⟩
    exact (read_append_colon hline).2 ⟨readPart_eq_ok.2 hl, readPart_eq_ok.2 hc⟩

example : read "1:2:3".toList = .error (.notPositive "column" "2:3".toList) := by decide +kernel

theorem isPart_write (hpos : 1 ≤ n) (hlt : n < 2 ^ 64) : IsPart (Decimal.write n) n :=
  ⟨⟨[], Decimal.write n, [], (List.append_nil _).symm, nofun, nofun, Decimal.spells_write n⟩, hpos,
    hlt⟩

theorem read_write (hline : 1 ≤ p.line ∧ p.line < 2 ^ 64)
    (hcolumn : 1 ≤ p.column ∧ p.column < 2 ^ 64) : read (write p) = .ok p := by
  have hcolon : ':' ∉ Decimal.write p.line := by
    intro hmem
    have hdigit := Nat.isDigit_of_mem_toDigits (by decide) (by decide) hmem
    exact absurd hdigit (by decide)
  refine read_eq_ok_iff.2 ⟨Decimal.write p.line, Decimal.write p.column, ?_, hcolon,
    isPart_write hline.1 hline.2, isPart_write hcolumn.1 hcolumn.2⟩
  rw [write, List.append_assoc, List.singleton_append]

/-- The texts that are read as positions are those of two numbers, each with blanks around it, with
the first colon between them. A position that has been written is read back, so that writing what has
been read gives a text that stays as it is. -/
theorem positions_read_and_written :
    (∀ (t : Text) (p : Position), read t = .ok p ↔ ∃ line column : Text,
      t = line ++ ':' :: column ∧ ':' ∉ line ∧ IsPart line p.line ∧ IsPart column p.column) ∧
    (∀ p : Position, 1 ≤ p.line ∧ p.line < 2 ^ 64 → 1 ≤ p.column ∧ p.column < 2 ^ 64 →
      read (write p) = .ok p) ∧
    ∀ t d : Text, (read t).map write = .ok d → (read d).map write = .ok d := by
  refine ⟨fun t p => read_eq_ok_iff, fun p => read_write, fun t d h => ?_⟩
  cases hread : read t with
  | error fault =>
    rw [hread] at h
    cases h
  | ok p =>
    rw [hread] at h
    obtain rfl : write p = d := Except.ok.inj h
    obtain ⟨line, column, -, -, hline, hcolumn⟩ := read_eq_ok_iff.1 hread
    rw [read_write hline.2 hcolumn.2]
    rfl

theorem positions_read_and_written_largest :
    let t : Text := "\t +007:\u00a018446744073709551615 ".toList
    let p : Position := ⟨7, 18446744073709551615⟩
    let d : Text := "7:18446744073709551615".toList
    read t = .ok p ∧ write p = d ∧ (∃ line column : Text,
      t = line ++ ':' :: column ∧ ':' ∉ line ∧ IsPart line p.line ∧ IsPart column p.column) ∧
    (1 ≤ p.line ∧ p.line < 2 ^ 64) ∧ (1 ≤ p.column ∧ p.column < 2 ^ 64) ∧
    read (write p) = .ok p ∧ (read t).map write = .ok d ∧ (read d).map write = .ok d := by
  intro t p d
  have hread : read t = .ok p := by decide +kernel
  have hwrite : write p = d := by decide +kernel
  have hline : 1 ≤ p.line ∧ p.line < 2 ^ 64 := by decide
  have hcolumn : 1 ≤ p.column ∧ p.column < 2 ^ 64 := by decide
  have hmap : (read t).map write = .ok d := by
    rw [hread]
    exact congrArg Except.ok hwrite
  obtain ⟨haccepts, hback, hfixed⟩ := positions_read_and_written
  exact ⟨hread, hwrite, (haccepts t p).1 hread, hline, hcolumn, hback p hline hcolumn, hmap,
    hfixed t d hmap⟩

end Position

end StyleVars
