import Mathlib.Tactic.SplitIfs
import StyleVars.Text.Utf8

namespace StyleVars.Utf8

def continuesAll (pending : Bytes) : Bytes → Bool
  | [] => true
  | b :: rest => continues pending b && continuesAll (pending ++ [b]) rest

theorem continuesAll_append (pending xs ys : Bytes) :
    continuesAll pending (xs ++ ys) =
      (continuesAll pending xs && continuesAll (pending ++ xs) ys) := by
  induction xs generalizing pending with
  | nil => simp [continuesAll]
  | cons x xs ih => simp [continuesAll, ih, Bool.and_assoc]

theorem sizeOf_cases (b : UInt8) :
    sizeOf b = 0 ∧ (0x80 ≤ b.toNat ∧ b.toNat < 0xC2 ∨ 0xF4 < b.toNat) ∨
    sizeOf b = 1 ∧ b.toNat < 0x80 ∨ sizeOf b = 2 ∧ 0xC2 ≤ b.toNat ∧ b.toNat ≤ 0xDF ∨
    sizeOf b = 3 ∧ 0xE0 ≤ b.toNat ∧ b.toNat ≤ 0xEF ∨
    sizeOf b = 4 ∧ 0xF0 ≤ b.toNat ∧ b.toNat ≤ 0xF4 := by
  simp only [sizeOf, UInt8.lt_iff_toNat_lt, UInt8.le_iff_toNat_le, UInt8.reduceToNat]
  split_ifs <;> omega

theorem sizeOf_le_four (b : UInt8) : sizeOf b ≤ 4 := by
  have := sizeOf_cases b
  omega

theorem continues_lead {lead b : UInt8} :
    continues [lead] b = true ↔ 0x80 ≤ b.toNat ∧ b.toNat ≤ 0xBF ∧
      (lead.toNat = 0xE0 → 0xA0 ≤ b.toNat) ∧ (lead.toNat = 0xED → b.toNat ≤ 0x9F) ∧
      (lead.toNat = 0xF0 → 0x90 ≤ b.toNat) ∧ (lead.toNat = 0xF4 → b.toNat ≤ 0x8F) := by
  have hne {n : UInt8} (h : [lead] = [n] → False) : lead.toNat ≠ n.toNat :=
    fun hn => h (by rw [UInt8.toNat_inj.1 hn])
  unfold continues
  split
  case h_5 h1 h2 h3 h4 =>
    have h1 := hne h1
    have h2 := hne h2
    have h3 := hne h3
    have h4 := hne h4
    simp only [UInt8.reduceToNat] at h1 h2 h3 h4
    simp [UInt8.le_iff_toNat_le, h1, h2, h3, h4]
  all_goals
    rename_i h
    cases h
    simp [UInt8.le_iff_toNat_le]
    omega

theorem continues_more {lead x b : UInt8} {more : Bytes} :
    continues (lead :: x :: more) b = true ↔ 0x80 ≤ b.toNat ∧ b.toNat ≤ 0xBF := by
  simp [continues, UInt8.le_iff_toNat_le]

/-- The bytes of one character: a first byte and as many more as it asks for. -/
def Complete (bytes : Bytes) : Prop :=
  ∃ lead more, bytes = lead :: more ∧ more.length + 1 = sizeOf lead ∧
    continuesAll [lead] more = true

theorem Complete.cases {bytes : Bytes} (h : Complete bytes) :
    (∃ a, bytes = [a] ∧ sizeOf a = 1) ∨
    (∃ a b, bytes = [a, b] ∧ sizeOf a = 2 ∧ continues [a] b = true) ∨
    (∃ a b c, bytes = [a, b, c] ∧ sizeOf a = 3 ∧ continues [a] b = true ∧
      continues [a, b] c = true) ∨
    ∃ a b c d, bytes = [a, b, c, d] ∧ sizeOf a = 4 ∧ continues [a] b = true ∧
      continues [a, b] c = true ∧ continues [a, b, c] d = true := by
  obtain ⟨a, more, rfl, hlen, hall⟩ := h
  have ha := sizeOf_le_four a
  match more with
  | [] => exact Or.inl ⟨a, rfl, by simpa using hlen.symm⟩
  | [b] =>
    exact Or.inr (Or.inl ⟨a, b, rfl, by simpa using hlen.symm,
      by simpa [continuesAll] using hall⟩)
  | [b, c] =>
    exact Or.inr (Or.inr (Or.inl ⟨a, b, c, rfl, by simpa using hlen.symm,
      by simpa [continuesAll] using hall⟩))
  | [b, c, d] =>
    exact Or.inr (Or.inr (Or.inr ⟨a, b, c, d, rfl, by simpa using hlen.symm,
      by simpa [continuesAll] using hall⟩))
  | b :: c :: d :: e :: more =>
    simp only [List.length_cons] at hlen
    omega

theorem toNat_ofNat {n : Nat} (h : n < 0xD800 ∨ 0xDFFF < n ∧ n < 0x110000) :
    (Char.ofNat n).toNat = n := by
  have hv : n.isValidChar := h
  rw [Char.ofNat, dif_pos hv]
  rfl

theorem ofNat_eq {n : Nat} {b : UInt8} (h : n % 256 = b.toNat) : UInt8.ofNat n = b := by
  apply UInt8.toNat_inj.1
  rw [UInt8.toNat_ofNat', h]

theorem encodeChar_eq {c : Char} {n : Nat} (h : c.toNat = n) :
    String.utf8EncodeChar c =
      if n ≤ 0x7F then [.ofNat n]
      else if n ≤ 0x7FF then [.ofNat (n / 64 % 32 + 0xC0), .ofNat (n % 64 + 0x80)]
      else if n ≤ 0xFFFF then
        [.ofNat (n / 4096 % 16 + 0xE0), .ofNat (n / 64 % 64 + 0x80), .ofNat (n % 64 + 0x80)]
      else
        [.ofNat (n / 262144 % 8 + 0xF0), .ofNat (n / 4096 % 64 + 0x80), .ofNat (n / 64 % 64 + 0x80),
          .ofNat (n % 64 + 0x80)] := by
  subst h
  rfl

theorem Complete.encode {bytes : Bytes} (h : Complete bytes) :
    String.utf8EncodeChar (Char.ofNat (codePoint bytes)) = bytes := by
  obtain ⟨a, rfl, ha⟩ | ⟨a, b, rfl, ha, hb⟩ | ⟨a, b, c, rfl, ha, hb, hc⟩ |
    ⟨a, b, c, d, rfl, ha, hb, hc, hd⟩ := h.cases
  · have hsize := sizeOf_cases a
    have hcode : codePoint [a] = a.toNat := rfl
    rw [hcode, encodeChar_eq (toNat_ofNat (by omega)), if_pos (by omega),
      ofNat_eq (b := a) (by omega)]
  · have hsize := sizeOf_cases a
    rw [continues_lead] at hb
    have hcode : codePoint [a, b] = a.toNat % 32 * 64 + b.toNat % 64 := rfl
    rw [hcode, encodeChar_eq (toNat_ofNat (by omega)), if_neg (by omega), if_pos (by omega),
      ofNat_eq (b := a) (by omega), ofNat_eq (b := b) (by omega)]
  · have hsize := sizeOf_cases a
    rw [continues_lead] at hb
    rw [continues_more] at hc
    have hcode : codePoint [a, b, c] =
      (a.toNat % 16 * 64 + b.toNat % 64) * 64 + c.toNat % 64 := rfl
    rw [hcode, encodeChar_eq (toNat_ofNat (by omega)), if_neg (by omega), if_neg (by omega),
      if_pos (by omega), ofNat_eq (b := a) (by omega), ofNat_eq (b := b) (by omega),
      ofNat_eq (b := c) (by omega)]
  · have hsize := sizeOf_cases a
    rw [continues_lead] at hb
    rw [continues_more] at hc hd
    have hcode : codePoint [a, b, c, d] =
      ((a.toNat % 8 * 64 + b.toNat % 64) * 64 + c.toNat % 64) * 64 + d.toNat % 64 := rfl
    rw [hcode, encodeChar_eq (toNat_ofNat (by omega)), if_neg (by omega), if_neg (by omega),
      if_neg (by omega), ofNat_eq (b := a) (by omega), ofNat_eq (b := b) (by omega),
      ofNat_eq (b := c) (by omega), ofNat_eq (b := d) (by omega)]

theorem toNat_valid (c : Char) : c.toNat < 0xD800 ∨ 0xDFFF < c.toNat ∧ c.toNat < 0x110000 := c.valid

theorem sizeOf_eq {b : UInt8} {n k : Nat} (hb : b.toNat = n)
    (h : k = 1 ∧ n < 0x80 ∨ k = 2 ∧ 0xC2 ≤ n ∧ n ≤ 0xDF ∨ k = 3 ∧ 0xE0 ≤ n ∧ n ≤ 0xEF ∨
      k = 4 ∧ 0xF0 ≤ n ∧ n ≤ 0xF4) : sizeOf b = k := by
  have := sizeOf_cases b
  omega

theorem complete_encode (c : Char) :
    Complete (String.utf8EncodeChar c) ∧ codePoint (String.utf8EncodeChar c) = c.toNat := by
  obtain ⟨n, hn⟩ : ∃ n, c.toNat = n := ⟨_, rfl⟩
  have hvalid := toNat_valid c
  rw [hn] at hvalid
  rw [encodeChar_eq hn, hn]
  have hbyte {m : Nat} (hm : m < 256) : (UInt8.ofNat m).toNat = m := by
    rw [UInt8.toNat_ofNat']
    omega
  split_ifs with h1 h2 h3
  · have ha : (UInt8.ofNat n).toNat = n := hbyte (by omega)
    refine ⟨⟨_, [], rfl, (sizeOf_eq ha (by simp; omega)).symm, rfl⟩, ha⟩
  · have ha : (UInt8.ofNat (n / 64 % 32 + 0xC0)).toNat = n / 64 % 32 + 0xC0 := hbyte (by omega)
    have hb : (UInt8.ofNat (n % 64 + 0x80)).toNat = n % 64 + 0x80 := hbyte (by omega)
    generalize UInt8.ofNat (n / 64 % 32 + 0xC0) = a at ha ⊢
    generalize UInt8.ofNat (n % 64 + 0x80) = b at hb ⊢
    refine ⟨⟨a, [b], rfl, (sizeOf_eq ha (by simp; omega)).symm, ?_⟩, ?_⟩
    · simp only [continuesAll, Bool.and_true, continues_lead]
      omega
    · change a.toNat % 32 * 64 + b.toNat % 64 = n
      omega
  · have ha : (UInt8.ofNat (n / 4096 % 16 + 0xE0)).toNat = n / 4096 % 16 + 0xE0 := hbyte (by omega)
    have hb : (UInt8.ofNat (n / 64 % 64 + 0x80)).toNat = n / 64 % 64 + 0x80 := hbyte (by omega)
    have hc : (UInt8.ofNat (n % 64 + 0x80)).toNat = n % 64 + 0x80 := hbyte (by omega)
    generalize UInt8.ofNat (n / 4096 % 16 + 0xE0) = a at ha ⊢
    generalize UInt8.ofNat (n / 64 % 64 + 0x80) = b at hb ⊢
    generalize UInt8.ofNat (n % 64 + 0x80) = c' at hc ⊢
    refine ⟨⟨a, [b, c'], rfl, (sizeOf_eq ha (by simp; omega)).symm, ?_⟩, ?_⟩
    · simp only [continuesAll, Bool.and_true, Bool.and_eq_true, List.cons_append, List.nil_append,
        continues_lead, continues_more]
      omega
    · change (a.toNat % 16 * 64 + b.toNat % 64) * 64 + c'.toNat % 64 = n
      omega
  · have ha : (UInt8.ofNat (n / 262144 % 8 + 0xF0)).toNat = n / 262144 % 8 + 0xF0 :=
      hbyte (by omega)
    have hb : (UInt8.ofNat (n / 4096 % 64 + 0x80)).toNat = n / 4096 % 64 + 0x80 := hbyte (by omega)
    have hc : (UInt8.ofNat (n / 64 % 64 + 0x80)).toNat = n / 64 % 64 + 0x80 := hbyte (by omega)
    have hd : (UInt8.ofNat (n % 64 + 0x80)).toNat = n % 64 + 0x80 := hbyte (by omega)
    generalize UInt8.ofNat (n / 262144 % 8 + 0xF0) = a at ha ⊢
    generalize UInt8.ofNat (n / 4096 % 64 + 0x80) = b at hb ⊢
    generalize UInt8.ofNat (n / 64 % 64 + 0x80) = c' at hc ⊢
    generalize UInt8.ofNat (n % 64 + 0x80) = d at hd ⊢
    refine ⟨⟨a, [b, c', d], rfl, (sizeOf_eq ha (by simp; omega)).symm, ?_⟩, ?_⟩
    · simp only [continuesAll, Bool.and_true, Bool.and_eq_true, List.cons_append, List.nil_append,
        continues_lead, continues_more]
      omega
    · change ((a.toNat % 8 * 64 + b.toNat % 64) * 64 + c'.toNat % 64) * 64 + d.toNat % 64 = n
      omega

theorem foldl_push {lead : UInt8} {more rest : Bytes} (finished : List Piece) (hrest : rest ≠ [])
    (hlen : more.length + rest.length + 1 = sizeOf lead)
    (hall : continuesAll (lead :: more) rest = true) :
    rest.foldl Decoder.push ⟨lead :: more, finished⟩ =
      ⟨[], .char (Char.ofNat (codePoint (lead :: more ++ rest))) :: finished⟩ := by
  induction rest generalizing more with
  | nil => exact absurd rfl hrest
  | cons b rest ih =>
    simp only [continuesAll, Bool.and_eq_true] at hall
    rw [List.foldl_cons, Decoder.push]
    simp only [hall.1, if_true]
    cases rest with
    | nil =>
      have hfull : more.length + 2 = sizeOf lead := by simpa using hlen
      rw [if_pos hfull, List.foldl_nil]
    | cons b' rest =>
      have hfull : more.length + 2 ≠ sizeOf lead := by
        simp only [List.length_cons] at hlen
        omega
      have hlen' : (more ++ [b]).length + (b' :: rest).length + 1 = sizeOf lead := by
        simp only [List.length_cons, List.length_append, List.length_nil] at hlen ⊢
        omega
      have h := ih (by simp) hlen' hall.2
      rw [if_neg hfull]
      simpa using h

theorem Complete.foldl_push {bytes : Bytes} (h : Complete bytes) (finished : List Piece) :
    bytes.foldl Decoder.push ⟨[], finished⟩ =
      ⟨[], .char (Char.ofNat (codePoint bytes)) :: finished⟩ := by
  obtain ⟨lead, more, rfl, hlen, hall⟩ := h
  rw [List.foldl_cons]
  change more.foldl Decoder.push (.begin finished lead) = _
  cases more with
  | nil =>
    have hone : sizeOf lead = 1 := hlen.symm
    simp only [Decoder.begin, hone]
    rfl
  | cons b more =>
    have hbegin : Decoder.begin finished lead = ⟨[lead], finished⟩ := by
      simp only [List.length_cons] at hlen
      simp only [Decoder.begin, ← hlen]
    rw [hbegin, Utf8.foldl_push finished (by simp) (by simpa using hlen) hall]
    rfl

theorem foldl_push_encode (t : Text) (finished : List Piece) :
    (encode t).foldl Decoder.push ⟨[], finished⟩ =
      ⟨[], (t.map Piece.char).reverse ++ finished⟩ := by
  induction t generalizing finished with
  | nil => rfl
  | cons c t ih =>
    obtain ⟨hcomplete, hcode⟩ := complete_encode c
    have hc : Char.ofNat c.toNat = c := Char.ofNat_toNat c
    change (String.utf8EncodeChar c ++ encode t).foldl Decoder.push ⟨[], finished⟩ = _
    rw [List.foldl_append, hcomplete.foldl_push, hcode, hc, ih]
    simp

theorem pieces_encode (t : Text) : pieces (encode t) = t.map Piece.char := by
  rw [pieces, foldl_push_encode t []]
  simp [Decoder.pieces]

theorem decode?_encode (t : Text) : decode? (encode t) = some t := by
  rw [decode?, pieces_encode, List.mapM_map]
  exact List.mapM_pure.trans (congrArg some (List.map_id t))

def Piece.bytes : Piece → Bytes
  | .char c => String.utf8EncodeChar c
  | .broken bytes => bytes

def Decoder.consumed (d : Decoder) : Bytes := d.finished.reverse.flatMap Piece.bytes ++ d.pending

/-- What is kept back may become a character. -/
def Decoder.Sound (d : Decoder) : Prop :=
  d.pending = [] ∨ ∃ lead more, d.pending = lead :: more ∧ more.length + 1 < sizeOf lead ∧
    continuesAll [lead] more = true

theorem Decoder.begin_sound (finished : List Piece) (b : UInt8) :
    (Decoder.begin finished b).Sound ∧
      (Decoder.begin finished b).consumed = finished.reverse.flatMap Piece.bytes ++ [b] := by
  have hsize := sizeOf_cases b
  unfold Decoder.begin
  split
  case h_1 h => exact ⟨Or.inl rfl, by simp [consumed, Piece.bytes]⟩
  case h_2 h =>
    have hb : Complete [b] := ⟨b, [], rfl, h.symm, rfl⟩
    have henc : String.utf8EncodeChar (Char.ofNat b.toNat) = [b] := hb.encode
    exact ⟨Or.inl rfl, by simp [consumed, Piece.bytes, henc]⟩
  case h_3 h0 h1 =>
    have h0 : sizeOf b ≠ 0 := h0
    have h1 : sizeOf b ≠ 1 := h1
    have hlt : ([] : Bytes).length + 1 < sizeOf b := by
      simp only [List.length_nil]
      omega
    exact ⟨Or.inr ⟨b, [], rfl, hlt, rfl⟩, rfl⟩

theorem Decoder.push_sound {d : Decoder} (hd : d.Sound) (b : UInt8) :
    (d.push b).Sound ∧ (d.push b).consumed = d.consumed ++ [b] := by
  obtain ⟨pending, finished⟩ := d
  obtain h | ⟨lead, more, h, hlen, hall⟩ := hd
  · simp only at h
    subst h
    simpa [push, consumed] using begin_sound finished b
  · simp only at h
    subst h
    simp only [push]
    split_ifs with hcont hfull
    · have hcomplete : Complete (lead :: more ++ [b]) := by
        refine ⟨lead, more ++ [b], rfl, by simp; omega, ?_⟩
        simp [continuesAll_append, hall, continuesAll, hcont]
      have henc : String.utf8EncodeChar (Char.ofNat (codePoint (lead :: (more ++ [b])))) =
        lead :: (more ++ [b]) := hcomplete.encode
      exact ⟨Or.inl rfl, by simp [consumed, Piece.bytes, henc]⟩
    · refine ⟨Or.inr ⟨lead, more ++ [b], rfl, by simp; omega, ?_⟩, by simp [consumed]⟩
      simp [continuesAll_append, hall, continuesAll, hcont]
    · obtain ⟨hsound, hconsumed⟩ := begin_sound (.broken (lead :: more) :: finished) b
      refine ⟨hsound, ?_⟩
      rw [hconsumed]
      simp [consumed, Piece.bytes]

theorem Decoder.foldl_push_sound {d : Decoder} (hd : d.Sound) (bytes : Bytes) :
    (bytes.foldl push d).consumed = d.consumed ++ bytes := by
  induction bytes generalizing d with
  | nil => simp
  | cons b bytes ih =>
    obtain ⟨hsound, hconsumed⟩ := push_sound hd b
    rw [List.foldl_cons, ih hsound, hconsumed, List.append_assoc]
    rfl

theorem flatMap_pieces (bytes : Bytes) : (pieces bytes).flatMap Piece.bytes = bytes := by
  have h := Decoder.foldl_push_sound (d := {}) (Or.inl rfl) bytes
  rw [pieces]
  generalize bytes.foldl Decoder.push {} = d at h ⊢
  obtain ⟨pending, finished⟩ := d
  cases pending with
  | nil => simpa [Decoder.pieces, Decoder.consumed] using h
  | cons b more => simpa [Decoder.pieces, Decoder.consumed, Piece.bytes] using h

theorem map_char_of_mapM {ps : List Piece} {t : Text} (h : ps.mapM Piece.char? = some t) :
    ps = t.map Piece.char := by
  induction ps generalizing t with
  | nil =>
    simp at h
    simp [← h]
  | cons p ps ih =>
    rw [List.mapM_cons] at h
    cases p with
    | broken bytes => simp [Piece.char?] at h
    | char c =>
      cases hps : ps.mapM Piece.char? with
      | none => simp [Piece.char?, hps] at h
      | some t' =>
        simp [Piece.char?, hps] at h
        simp [← h, ih hps]

theorem decode?_eq_some_iff {bytes : Bytes} {t : Text} :
    decode? bytes = some t ↔ bytes = encode t := by
  constructor
  · intro h
    have hpieces := flatMap_pieces bytes
    rw [map_char_of_mapM h, List.flatMap_map] at hpieces
    exact hpieces.symm
  · rintro rfl
    exact decode?_encode t

end StyleVars.Utf8
