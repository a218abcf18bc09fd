import Mathlib.Data.List.TakeWhile
import StyleVars.Property.Reference
import StyleVars.Property.Token

namespace StyleVars.Property

/-- Whether a name begins with the first character of a text. -/
def beginsName : Text → Bool
  | a :: b :: c :: _ => a == '-' && b == '-' && isNameStart c
  | _ => false

theorem isNameChar_of_isNameStart {c : Char} (h : isNameStart c = true) : isNameChar c = true := by
  simp [isNameChar, h]

theorem exists_of_beginsName {t : Text} (h : beginsName t = true) :
    ∃ c rest, t = '-' :: '-' :: c :: rest ∧ isNameStart c = true := by
  unfold beginsName at h
  split at h
  case h_1 a b c rest =>
    simp only [Bool.and_eq_true, beq_iff_eq] at h
    obtain ⟨⟨rfl, rfl⟩, hc⟩ := h
    exact ⟨c, rest, rfl, hc⟩
  case h_2 => cases h

theorem isName_iff {t : Text} :
    isName t = true ↔ beginsName t = true ∧ t.all isNameChar = true := by
  constructor
  · intro h
    unfold isName at h
    split at h
    case h_1 c rest =>
      rw [Bool.and_eq_true] at h
      have hhyphen : isNameChar '-' = true := by decide
      simp [beginsName, h.1, h.2, hhyphen, isNameChar_of_isNameStart h.1]
    case h_2 => cases h
  · rintro ⟨hbegins, hall⟩
    obtain ⟨c, rest, rfl, hc⟩ := exists_of_beginsName hbegins
    simp only [List.all_cons, Bool.and_eq_true] at hall
    simp [isName, hc, hall]

theorem isNameChar_of_beginsName {c : Char} {t : Text} (h : beginsName (c :: t) = true) :
    isNameChar c = true := by
  obtain ⟨d, rest, heq, -⟩ := exists_of_beginsName h
  obtain ⟨rfl, -⟩ := List.cons.inj heq
  decide

theorem tokens_of_beginsName {t : Text} (h : beginsName t = true) :
    tokens t = t.takeWhile isNameChar :: tokens (t.dropWhile isNameChar) := by
  obtain ⟨c, rest, rfl, hc⟩ := exists_of_beginsName h
  have hhyphen : isNameChar '-' = true := by decide
  have hc' := isNameChar_of_isNameStart hc
  rw [tokens, if_pos hc]
  simp [hhyphen, hc']

theorem tokens_cons {c : Char} {t : Text} (h : beginsName (c :: t) = false) :
    tokens (c :: t) = tokens t := by
  rw [tokens.eq_def]
  split
  case h_1 d rest heq =>
    rw [heq] at h
    obtain ⟨-, rfl⟩ := List.cons.inj heq
    exact if_neg (by simpa [beginsName] using h)
  case h_2 heq => rw [(List.cons.inj heq).2]
  case h_3 heq => cases heq

/-- The tokens of a text that begins at the byte offset `start`, each with the offset at which it
begins itself. -/
def places (start : Nat) : Text → List (Nat × Text)
  | [] => []
  | c :: t =>
    if _ : beginsName (c :: t) then
      (start, (c :: t).takeWhile isNameChar) ::
        places (start + Text.byteSize ((c :: t).takeWhile isNameChar))
          ((c :: t).dropWhile isNameChar)
    else places (start + c.utf8Size) t
termination_by t => t.length
decreasing_by
  · have hle := (List.dropWhile_sublist isNameChar (l := t)).length_le
    have hc : isNameChar c = true := isNameChar_of_beginsName ‹_›
    simp only [List.dropWhile_cons, hc, if_true, List.length_cons]
    omega
  · simp

theorem map_places (start : Nat) (t : Text) : (places start t).map Prod.snd = tokens t := by
  fun_induction places start t with
  | case1 start => simp [tokens]
  | case2 start c t h ih => rw [List.map_cons, ih, tokens_of_beginsName h]
  | case3 start c t h ih => rw [ih, tokens_cons (by simpa using h)]

theorem mem_tokens_of_mem_places {start i : Nat} {name t : Text} (h : (i, name) ∈ places start t) :
    name ∈ tokens t := by
  rw [← map_places start t]
  exact List.mem_map_of_mem h

theorem exists_place_of_mem_tokens {name t : Text} (h : name ∈ tokens t) (start : Nat) :
    ∃ i, (i, name) ∈ places start t := by
  rw [← map_places start t] at h
  obtain ⟨⟨i, _⟩, hi, rfl⟩ := List.mem_map.1 h
  exact ⟨i, hi⟩

theorem places_of_beginsName {t : Text} (start : Nat) (h : beginsName t = true) :
    places start t = (start, t.takeWhile isNameChar) ::
      places (start + Text.byteSize (t.takeWhile isNameChar)) (t.dropWhile isNameChar) := by
  cases t with
  | nil => cases h
  | cons c t => rw [places, dif_pos h]

theorem places_cons {c : Char} {t : Text} (start : Nat) (h : beginsName (c :: t) = false) :
    places start (c :: t) = places (start + c.utf8Size) t := by
  rw [places, dif_neg (by simp [h])]

variable {c : Char} {a b t name : Text} {start i : Nat}

theorem takeWhile_append_cons {p : Char → Bool} (hc : p c = false) :
    (a ++ c :: b).takeWhile p = a.takeWhile p := by
  induction a with
  | nil => simp [hc]
  | cons d a ih => simp [List.takeWhile_cons, ih]

theorem dropWhile_append_cons {p : Char → Bool} (hc : p c = false) :
    (a ++ c :: b).dropWhile p = a.dropWhile p ++ c :: b := by
  induction a with
  | nil => simp [hc]
  | cons d a ih =>
    simp only [List.cons_append, List.dropWhile_cons, ih]
    split <;> rfl

theorem beginsName_append_cons (hc : isNameChar c = false) :
    beginsName (a ++ c :: b) = beginsName a := by
  have hhyphen : c ≠ '-' := by
    rintro rfl
    exact absurd hc (by decide)
  have hstart : isNameStart c = false :=
    eq_false_of_ne_true fun h => absurd (isNameChar_of_isNameStart h) (by simp [hc])
  match a with
  | [] => cases b with
    | nil => rfl
    | cons d b => cases b <;> simp [beginsName, hhyphen]
  | [x] => cases b <;> simp [beginsName, hhyphen]
  | [x, y] => simp [beginsName, hstart]
  | x :: y :: z :: rest => rfl

/-- Behind a character that no name can hold the search for tokens begins anew. -/
theorem places_append_cons (hc : isNameChar c = false) (start : Nat) (a b : Text) :
    places start (a ++ c :: b) =
      places start a ++ places (start + a.byteSize + c.utf8Size) b := by
  fun_induction places start a with
  | case1 start =>
    have h : beginsName (c :: b) = false := beginsName_append_cons (a := []) hc
    rw [List.nil_append, places_cons start h, List.nil_append, Text.byteSize_nil, Nat.add_zero]
  | case2 start d t h ih =>
    have hsize : Text.byteSize (d :: t) =
        Text.byteSize ((d :: t).takeWhile isNameChar) +
          Text.byteSize ((d :: t).dropWhile isNameChar) := by
      rw [← Text.byteSize_append, List.takeWhile_append_dropWhile]
    rw [places_of_beginsName start ((beginsName_append_cons hc).trans h), takeWhile_append_cons hc,
      dropWhile_append_cons hc, ih, hsize, List.cons_append]
    simp only [Nat.add_assoc]
  | case3 start d t h ih =>
    have h' : beginsName (d :: t ++ c :: b) = false :=
      (beginsName_append_cons hc).trans (by simpa using h)
    rw [List.cons_append] at h' ⊢
    rw [places_cons start h', ih, Text.byteSize_cons]
    simp only [Nat.add_assoc]

theorem tokens_append_cons (hc : isNameChar c = false) (a b : Text) :
    tokens (a ++ c :: b) = tokens a ++ tokens b := by
  rw [← map_places 0, places_append_cons hc, List.map_append, map_places, map_places]

theorem mem_places (h : (i, name) ∈ places start t) :
    isName name = true ∧ ∃ a b, t = a ++ name ++ b ∧ i = start + a.byteSize ∧
      ∀ c ∈ b.head?, isNameChar c = false := by
  fun_induction places start t with
  | case1 start => cases h
  | case2 start c t hbegins ih =>
    have hsplit := List.takeWhile_append_dropWhile (p := isNameChar) (l := c :: t)
    obtain h | h := List.mem_cons.1 h
    · cases h
      refine ⟨isName_iff.2 ⟨?_, by simp⟩, [], _, hsplit.symm, rfl, ?_⟩
      · obtain ⟨d, rest, heq, hd⟩ := exists_of_beginsName hbegins
        have hhyphen : isNameChar '-' = true := by decide
        simp [heq, hhyphen, isNameChar_of_isNameStart hd, beginsName, hd]
      · intro d hd
        have hnot := List.head?_dropWhile_not isNameChar (c :: t)
        rw [Option.mem_def.1 hd] at hnot
        simpa using hnot
    · obtain ⟨hname, a, b, heq, rfl, hb⟩ := ih h
      refine ⟨hname, (c :: t).takeWhile isNameChar ++ a, b, ?_, ?_, hb⟩
      · rw [List.append_assoc, List.append_assoc, ← List.append_assoc a, ← heq, hsplit]
      · rw [Text.byteSize_append, Nat.add_assoc]
  | case3 start c t hbegins ih =>
    obtain ⟨hname, a, b, rfl, rfl, hb⟩ := ih h
    exact ⟨hname, c :: a, b, rfl, by rw [Text.byteSize_cons, Nat.add_assoc], hb⟩

theorem isName_of_mem_tokens (h : name ∈ tokens t) : isName name = true := by
  obtain ⟨i, hi⟩ := exists_place_of_mem_tokens h 0
  exact (mem_places hi).1

theorem start_le_of_mem_places (h : (i, name) ∈ places start t) : start ≤ i := by
  obtain ⟨-, a, b, -, rfl, -⟩ := mem_places h
  exact Nat.le_add_right _ _

theorem places_isName (h : isName name = true) (start : Nat) :
    places start name = [(start, name)] := by
  obtain ⟨hbegins, hall⟩ := isName_iff.1 h
  have htake : name.takeWhile isNameChar = name :=
    List.takeWhile_eq_self_iff.2 (by simpa using hall)
  have hdrop : name.dropWhile isNameChar = [] :=
    List.dropWhile_eq_nil_iff.2 (by simpa using hall)
  rw [places_of_beginsName start hbegins, hdrop, htake, places]

theorem isName_iff_tokens_eq : isName t = true ↔ tokens t = [t] := by
  constructor
  · intro h
    rw [← map_places 0, places_isName h]
    rfl
  · intro h
    exact isName_of_mem_tokens (h ▸ List.mem_singleton_self t : t ∈ tokens t)

theorem mem_places_tail (h : (i, name) ∈ places start (c :: t)) (hi : start + c.utf8Size ≤ i) :
    (i, name) ∈ places (start + c.utf8Size) t := by
  cases hbegins : beginsName (c :: t) with
  | false => rwa [places_cons start hbegins] at h
  | true =>
    have hc := isNameChar_of_beginsName hbegins
    have hpos := c.utf8Size_pos
    rw [places_of_beginsName start hbegins] at h
    obtain h | h := List.mem_cons.1 h
    · cases h
      omega
    · simp only [List.takeWhile_cons, List.dropWhile_cons, hc, if_true, Text.byteSize_cons] at h
      have hsplit := List.takeWhile_append_dropWhile (p := isNameChar) (l := t)
      have hnot := List.head?_dropWhile_not isNameChar t
      generalize t.takeWhile isNameChar = run at h hsplit
      generalize t.dropWhile isNameChar = rest at h hsplit hnot
      cases rest with
      | nil => rw [places] at h; cases h
      | cons d rest =>
        have hd : isNameChar d = false := by simpa using hnot
        rw [← hsplit, places_append_cons hd]
        rw [places_cons _ (beginsName_append_cons (a := []) hd)] at h
        rw [← Nat.add_assoc] at h
        exact List.mem_append_right _ h

theorem mem_places_right (h : (i, name) ∈ places start (a ++ b)) (hi : start + a.byteSize ≤ i) :
    (i, name) ∈ places (start + a.byteSize) b := by
  induction a generalizing start with
  | nil => simpa using h
  | cons c a ih =>
    rw [Text.byteSize_cons, ← Nat.add_assoc] at hi ⊢
    exact ih (mem_places_tail h (by omega)) hi

theorem places_add (n start : Nat) (t : Text) :
    places (n + start) t = (places start t).map (Prod.map (n + ·) id) := by
  fun_induction places start t with
  | case1 start => simp [places]
  | case2 start c t h ih =>
    rw [places_of_beginsName _ h, List.map_cons, ← ih, Nat.add_assoc]
    rfl
  | case3 start c t h ih => rw [places_cons _ (by simpa using h), ← ih, Nat.add_assoc]

theorem places_append_reference (hname : isName name = true) (start : Nat) (a b : Text) :
    places start (a ++ reference name ++ b) =
      places start (a ++ ['v', 'a', 'r']) ++
        (start + a.byteSize + 4, name) ::
          places (start + a.byteSize + (reference name).byteSize) b := by
  have heq : a ++ reference name ++ b =
      (a ++ ['v', 'a', 'r']) ++ '(' :: (name ++ ')' :: b) := by simp [reference]
  have hopen : ('(' : Char).utf8Size = 1 := by decide
  have hsize : (reference name).byteSize = 4 + name.byteSize + 1 := by
    simp only [reference, Text.byteSize_append]
    rfl
  have hvar : Text.byteSize ['v', 'a', 'r'] = 3 := rfl
  have hclose : (')' : Char).utf8Size = 1 := by decide
  have hopen' : isNameChar '(' = false := by decide
  have hclose' : isNameChar ')' = false := by decide
  rw [heq, places_append_cons hopen', places_append_cons hclose', places_isName hname,
    Text.byteSize_append, hvar, hopen, hclose, hsize]
  have hend : start + (a.byteSize + 3) + 1 + name.byteSize + 1 =
      start + a.byteSize + (4 + name.byteSize + 1) := by omega
  rw [hend]
  rfl

theorem tokens_append_reference (hname : isName name = true) (a b : Text) :
    tokens (a ++ reference name ++ b) = tokens (a ++ ['v', 'a', 'r']) ++ name :: tokens b := by
  rw [← map_places 0, places_append_reference hname, List.map_append, List.map_cons, map_places,
    map_places]

theorem tokens_reference (hname : isName name = true) : tokens (reference name) = [name] := by
  have h := tokens_append_reference hname [] []
  rw [List.nil_append, List.append_nil] at h
  rw [h]
  simp [tokens]

end StyleVars.Property
