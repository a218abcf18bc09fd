import StyleVars.Proofs.Property.Places

namespace StyleVars.Property

variable {a b t before word after name : Text} {c : Char} {start i : Nat}

/-- The words of a text that begins at the byte offset `start`, first one first, each with the
offset at which it begins itself. -/
def words (start : Nat) : Text → List (Nat × Text)
  | [] => []
  | c :: t =>
    if _ : isNameChar c then
      (start, (c :: t).takeWhile isNameChar) ::
        words (start + Text.byteSize ((c :: t).takeWhile isNameChar))
          ((c :: t).dropWhile isNameChar)
    else words (start + c.utf8Size) t
termination_by t => t.length
decreasing_by
  · have hle := (List.dropWhile_sublist isNameChar (l := t)).length_le
    have hc : isNameChar c = true := ‹_›
    simp only [List.dropWhile_cons, hc, if_true, List.length_cons]
    omega
  · simp

/-- The rest of a word from the first place at which a name begins, with the offset of the place. -/
def firstName? (start : Nat) : Text → Option (Nat × Text)
  | [] => none
  | c :: t =>
    if beginsName (c :: t) then some (start, c :: t) else firstName? (start + c.utf8Size) t

/-- What stands between the two other parts of a text holds name characters only, and neither of the
characters around it is one. -/
structure IsWord (before word after : Text) : Prop where
  ne_nil : word ≠ []
  all : ∀ c ∈ word, isNameChar c = true
  before : ∀ c ∈ before.getLast?, isNameChar c = false
  after : ∀ c ∈ after.head?, isNameChar c = false

theorem cut_induction {motive : Text → Prop}
    (within : ∀ t : Text, (∀ c ∈ t, isNameChar c = true) → motive t)
    (cut : ∀ (a : Text) (c : Char) (b : Text), isNameChar c = false → motive a → motive b →
      motive (a ++ c :: b))
    (t : Text) : motive t := by
  induction hn : t.length using Nat.strong_induction_on generalizing t with
  | h n ih =>
    by_cases hall : ∀ c ∈ t, isNameChar c = true
    · exact within t hall
    · obtain ⟨c, hmem, hc⟩ : ∃ c ∈ t, isNameChar c = false := by simpa using hall
      obtain ⟨a, b, rfl⟩ := List.append_of_mem hmem
      simp only [List.length_append, List.length_cons] at hn
      apply cut a c b hc
      · exact ih a.length (by omega) a rfl
      · exact ih b.length (by omega) b rfl

theorem words_cons_of_not (start : Nat) (t : Text) (hc : isNameChar c = false) :
    words start (c :: t) = words (start + c.utf8Size) t := by
  rw [words, dif_neg (by simp [hc])]

theorem words_of_all (start : Nat) (hne : t ≠ []) (hall : ∀ c ∈ t, isNameChar c = true) :
    words start t = [(start, t)] := by
  cases t with
  | nil => exact absurd rfl hne
  | cons c t =>
    have htake : (c :: t).takeWhile isNameChar = c :: t := List.takeWhile_eq_self_iff.2 hall
    have hdrop : (c :: t).dropWhile isNameChar = [] := List.dropWhile_eq_nil_iff.2 hall
    rw [words, dif_pos (hall c List.mem_cons_self), htake, hdrop, words]

theorem words_append_cons (hc : isNameChar c = false) (start : Nat) (a b : Text) :
    words start (a ++ c :: b) = words start a ++ words (start + a.byteSize + c.utf8Size) b := by
  fun_induction words start a with
  | case1 start =>
    rw [List.nil_append, words_cons_of_not start b hc, List.nil_append, Text.byteSize_nil,
      Nat.add_zero]
  | case2 start d t hd ih =>
    have hsize : Text.byteSize (d :: t) =
        Text.byteSize ((d :: t).takeWhile isNameChar) +
          Text.byteSize ((d :: t).dropWhile isNameChar) := by
      rw [← Text.byteSize_append, List.takeWhile_append_dropWhile]
    rw [List.cons_append, words, dif_pos hd, ← List.cons_append, takeWhile_append_cons hc,
      dropWhile_append_cons hc, ih, hsize, List.cons_append]
    simp only [Nat.add_assoc]
  | case3 start d t hd ih =>
    rw [List.cons_append, words_cons_of_not start _ (by simpa using hd), ih, Text.byteSize_cons]
    simp only [Nat.add_assoc]

theorem words_append (h : IsWord before word after) (start : Nat) :
    (start + before.byteSize, word) ∈ words start (before ++ word ++ after) := by
  have hword : ∀ start, (start, word) ∈ words start (word ++ after) := by
    intro start
    cases after with
    | nil => simp [words_of_all start h.ne_nil h.all]
    | cons d after =>
      rw [words_append_cons (h.after d rfl), words_of_all start h.ne_nil h.all]
      simp
  obtain rfl | ⟨x, c, rfl⟩ := List.eq_nil_or_concat before
  · simpa using hword start
  · have hc : isNameChar c = false := h.before c (by simp)
    have heq : x.concat c ++ word ++ after = x ++ c :: (word ++ after) := by simp
    rw [heq, words_append_cons hc]
    apply List.mem_append_right
    simpa [Nat.add_assoc] using hword (start + Text.byteSize x + c.utf8Size)

theorem isWord_of_mem_words (h : (i, word) ∈ words start t) :
    ∃ before after, t = before ++ word ++ after ∧ start + before.byteSize = i ∧
      IsWord before word after := by
  induction t using cut_induction generalizing start with
  | within t hall =>
    by_cases ht : t = []
    · simp [ht, words] at h
    · rw [words_of_all start ht hall, List.mem_singleton] at h
      cases h
      exact ⟨[], [], by simp, by simp, ht, hall, by simp, by simp⟩
  | cut a c b hc iha ihb =>
    rw [words_append_cons hc] at h
    obtain h | h := List.mem_append.1 h
    · obtain ⟨before, after, rfl, hi, hne, hall, hbefore, hafter⟩ := iha h
      refine ⟨before, after ++ c :: b, by simp, hi, hne, hall, hbefore, ?_⟩
      -- A word that ends with its part of the text has the character of the cut behind it.
      cases after with
      | nil => simpa using hc
      | cons d after => exact hafter
    · obtain ⟨before, after, rfl, hi, hne, hall, hbefore, hafter⟩ := ihb h
      refine ⟨a ++ c :: before, after, by simp, ?_, hne, hall, ?_, hafter⟩
      · rw [Text.byteSize_append, Text.byteSize_cons, ← hi]
        omega
      · obtain rfl | ⟨x, d, rfl⟩ := List.eq_nil_or_concat before
        · simpa using hc
        · have hd : isNameChar d = false := hbefore d (by simp)
          rw [List.concat_eq_append, ← List.cons_append, ← List.append_assoc,
            List.getLast?_concat]
          simpa using hd

theorem mem_words : (i, word) ∈ words start t ↔ ∃ before after, t = before ++ word ++ after ∧
    start + before.byteSize = i ∧ IsWord before word after := by
  constructor
  · exact isWord_of_mem_words
  · rintro ⟨before, after, rfl, rfl, h⟩
    exact words_append h start

theorem pairwise_words (start : Nat) (t : Text) :
    (words start t).Pairwise fun v w => v.1 + v.2.byteSize < w.1 := by
  induction t using cut_induction generalizing start with
  | within t hall =>
    by_cases ht : t = []
    · simp [ht, words]
    · simp [words_of_all start ht hall]
  | cut a c b hc iha ihb =>
    rw [words_append_cons hc, List.pairwise_append]
    refine ⟨iha start, ihb _, ?_⟩
    rintro ⟨i, v⟩ hv ⟨j, w⟩ hw
    obtain ⟨x, y, rfl, rfl, -⟩ := mem_words.1 hv
    obtain ⟨x', y', -, rfl, -⟩ := mem_words.1 hw
    have hpos := c.utf8Size_pos
    simp only [Text.byteSize_append]
    omega

theorem firstName?_eq_some {j : Nat} : firstName? i word = some (j, name) ↔
    ∃ x, word = x ++ name ∧ i + x.byteSize = j ∧ beginsName name = true ∧
      ∀ y z, word = y ++ z → beginsName z = true → x.length ≤ y.length := by
  induction word generalizing i with
  | nil =>
    constructor
    · nofun
    · rintro ⟨x, hx, -, hname, -⟩
      rw [(List.append_eq_nil_iff.1 hx.symm).2] at hname
      cases hname
  | cons c word ih =>
    rw [firstName?]
    by_cases hbegins : beginsName (c :: word) = true
    · rw [if_pos hbegins]
      constructor
      · intro h
        cases h
        exact ⟨[], rfl, by simp, hbegins, fun y z _ _ => Nat.zero_le _⟩
      · rintro ⟨x, hx, rfl, -, hfirst⟩
        have hlen := hfirst [] (c :: word) rfl hbegins
        obtain rfl : x = [] := List.length_eq_zero_iff.1 (Nat.le_zero.1 hlen)
        simp [hx]
    · rw [if_neg hbegins, ih]
      constructor
      · rintro ⟨x, rfl, rfl, hname, hfirst⟩
        refine ⟨c :: x, rfl, by simp [Nat.add_assoc], hname, fun y z heq hz => ?_⟩
        cases y with
        | nil => exact absurd (heq ▸ hz) hbegins
        | cons d y =>
          have hle := hfirst y z (List.cons.inj heq).2 hz
          simpa using hle
      · rintro ⟨x, heq, rfl, hname, hfirst⟩
        cases x with
        | nil => exact absurd (heq ▸ hname) hbegins
        | cons d x =>
          obtain ⟨rfl, rfl⟩ := List.cons.inj heq
          refine ⟨x, rfl, by simp [Nat.add_assoc], hname, fun y z heq hz => ?_⟩
          have hle := hfirst (c :: y) z (by rw [heq]; rfl) hz
          simpa using hle

theorem tokens_of_all (start : Nat) (hall : ∀ c ∈ t, isNameChar c = true) :
    tokens t = ((firstName? start t).map Prod.snd).toList := by
  induction t generalizing start with
  | nil => simp [tokens, firstName?]
  | cons c t ih =>
    by_cases hbegins : beginsName (c :: t) = true
    · -- The name goes as far as the word.
      have htake : (c :: t).takeWhile isNameChar = c :: t := List.takeWhile_eq_self_iff.2 hall
      have hdrop : (c :: t).dropWhile isNameChar = [] := List.dropWhile_eq_nil_iff.2 hall
      rw [tokens_of_beginsName hbegins, htake, hdrop, firstName?, if_pos hbegins]
      simp [tokens]
    · rw [tokens_cons (by simpa using hbegins), firstName?, if_neg hbegins]
      exact ih _ fun d hd => hall d (List.mem_cons_of_mem c hd)

theorem tokens_eq_filterMap_words (start : Nat) (t : Text) :
    tokens t = ((words start t).filterMap fun w => firstName? w.1 w.2).map Prod.snd := by
  induction t using cut_induction generalizing start with
  | within t hall =>
    rw [tokens_of_all start hall]
    by_cases ht : t = []
    · simp [ht, words, firstName?]
    · rw [words_of_all start ht hall]
      cases h : firstName? start t <;> simp [h]
  | cut a c b hc iha ihb =>
    rw [tokens_append_cons hc, words_append_cons hc, List.filterMap_append, List.map_append,
      ← iha, ← ihb]

theorem le_of_firstName? {j : Nat} (h : firstName? i word = some (j, name)) :
    i ≤ j ∧ j + name.byteSize = i + word.byteSize := by
  obtain ⟨x, rfl, rfl, -, -⟩ := firstName?_eq_some.1 h
  simp [Nat.add_assoc]

/-- The tokens of a text are the first names of its words, each with the rest of its word. The words
are all the longest runs of name characters, from left to right. So no two tokens share a character,
and a character outside words cuts the tokens of a text into those of its two parts. -/
theorem tokens_of_words (t : Text) :
    let found := (words 0 t).filterMap fun w => firstName? w.1 w.2
    tokens t = found.map Prod.snd ∧
    (∀ i word, (i, word) ∈ words 0 t ↔ ∃ before after, t = before ++ word ++ after ∧
      before.byteSize = i ∧ IsWord before word after) ∧
    (words 0 t).Pairwise (fun v w => v.1 + v.2.byteSize < w.1) ∧
    (∀ i word j name, firstName? i word = some (j, name) ↔
      ∃ x, word = x ++ name ∧ i + x.byteSize = j ∧ beginsName name = true ∧
        ∀ y z, word = y ++ z → beginsName z = true → x.length ≤ y.length) ∧
    found.Pairwise (fun p q => p.1 + p.2.byteSize < q.1) ∧
    ∀ c a b, isNameChar c = false → tokens (a ++ c :: b) = tokens a ++ tokens b := by
  intro found
  refine ⟨tokens_eq_filterMap_words 0 t, fun i word => ?_, pairwise_words 0 t,
    fun i word j name => firstName?_eq_some, ?_, fun c a b hc => tokens_append_cons hc a b⟩
  · rw [mem_words]
    simp only [Nat.zero_add]
  · apply List.pairwise_filterMap.2
    apply (pairwise_words 0 t).imp
    rintro ⟨i, v⟩ ⟨j, w⟩ hlt ⟨k, p⟩ hp ⟨l, q⟩ hq
    have hp : k + p.byteSize = i + v.byteSize := (le_of_firstName? hp).2
    have hq : j ≤ l := (le_of_firstName? hq).1
    simp only at hlt ⊢
    omega

theorem tokens_of_words_third_hyphen :
    let a : Text := "1--a".toList
    let b : Text := "---x;".toList
    let t : Text := a ++ '€' :: b
    isNameChar '€' = false ∧ tokens t = tokens a ++ tokens b ∧ (7, "---x".toList) ∈ words 0 t ∧
      firstName? 7 "---x".toList = some (8, "--x".toList) ∧ "--x".toList ∈ tokens t := by
  intro a b t
  obtain ⟨htokens, hwords, -, -, -, hcut⟩ := tokens_of_words t
  have hc : isNameChar '€' = false := by decide
  have hisWord : IsWord "1--a€".toList "---x".toList [';'] :=
    { ne_nil := by decide
      all := List.all_eq_true.1 (by decide)
      before := by
        intro c hc
        obtain rfl : '€' = c := Option.some.inj hc
        decide
      after := by
        intro c hc
        obtain rfl : ';' = c := Option.some.inj hc
        decide }
  have hword : (7, "---x".toList) ∈ words 0 t := by
    apply (hwords 7 "---x".toList).2
    exact ⟨"1--a€".toList, [';'], by decide, by decide, hisWord⟩
  have hname : firstName? 7 "---x".toList = some (8, "--x".toList) := by decide
  refine ⟨hc, hcut '€' a b hc, hword, hname, ?_⟩
  rw [htokens]
  exact List.mem_map.2 ⟨_, List.mem_filterMap.2 ⟨_, hword, hname⟩, rfl⟩

end StyleVars.Property
