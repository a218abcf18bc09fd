import Mathlib.Data.List.Forall2
import StyleVars.Session.SnapshotJson

namespace StyleVars

namespace Json

variable {α : Type} {n : Nat}

theorem skipSpace_newline (indent : Nat) (t : Text) :
    skipSpace (newline indent ++ t) = skipSpace t := by
  refine List.dropWhile_append_of_pos fun c hc => ?_
  obtain rfl | hc := List.mem_cons.1 hc
  · rfl
  · obtain rfl := List.eq_of_mem_replicate hc
    rfl

theorem readValue_congr {t t' : Text} (h : skipSpace t = skipSpace t') (n : Nat) :
    readValue n t = readValue n t' := by
  cases n with
  | zero => rfl
  | succ n => rw [readValue, readValue, h]

theorem hexNumber?_digitChar : ∀ n < 0x20,
    hexNumber? ['0', '0', Nat.digitChar (n / 16), Nat.digitChar (n % 16)] = some n := by
  decide

theorem joinParts_utf16 (h : n < 0x20) (parts : List StringPart) :
    joinParts (.utf16 n :: parts) = (Char.ofNat n :: ·) <$> joinParts parts := by
  -- A control character is no half of a surrogate pair.
  have hhigh : isHighSurrogate n = false := by simp [isHighSurrogate]; omega
  have hlow : isLowSurrogate n = false := by simp [isLowSurrogate]; omega
  match parts with
  | [] => simp [joinParts, hhigh, hlow]
  | .char c :: rest => simp [joinParts, hhigh, hlow]
  | .utf16 low :: rest => simp [joinParts, hhigh, hlow]

theorem readParts_escapeChar (c : Char) : ∃ part,
    (∀ parts, joinParts (part :: parts) = (c :: ·) <$> joinParts parts) ∧
    ∀ t parts rest, readParts t = some (parts, rest) →
      readParts (escapeChar c ++ t) = some (part :: parts, rest) := by
  unfold escapeChar
  split
  case h_8 hquote hbackslash _ _ _ _ _ =>
    split
    case isTrue h =>
      refine ⟨.utf16 c.toNat, fun parts => ?_, fun t parts rest ht => ?_⟩
      · rw [joinParts_utf16 h, Char.ofNat_toNat]
      · simp [readParts, hexNumber?_digitChar _ h, ht]
    case isFalse h =>
      have hplain : c ≠ '\\' := hbackslash
      refine ⟨.char c, fun parts => rfl, fun t parts rest ht => ?_⟩
      simp [readParts, h, hplain, ht]
  all_goals
    refine ⟨.char _, fun parts => rfl, fun t parts rest ht => ?_⟩
    simp [readParts, shortEscape?, ht]

theorem readString_escaped (t rest : Text) :
    readString (t.flatMap escapeChar ++ '"' :: rest) = some (some t, rest) := by
  have hparts : ∃ parts, readParts (t.flatMap escapeChar ++ '"' :: rest) = some (parts, rest) ∧
      joinParts parts = some t := by
    induction t with
    | nil => exact ⟨[], rfl, rfl⟩
    | cons c t ih =>
      obtain ⟨parts, hread, hjoin⟩ := ih
      obtain ⟨part, hpart, hescape⟩ := readParts_escapeChar c
      refine ⟨part :: parts, ?_, ?_⟩
      · rw [List.flatMap_cons, List.append_assoc]
        exact hescape _ parts rest hread
      · rw [hpart, hjoin]
        rfl
  obtain ⟨parts, hread, hjoin⟩ := hparts
  simp [readString, hread, hjoin]

theorem quote_append (t rest : Text) :
    quote t ++ rest = '"' :: (t.flatMap escapeChar ++ '"' :: rest) := by
  simp [quote]

theorem readValue_quote (n : Nat) (t rest : Text) :
    readValue (n + 1) (quote t ++ rest) = some (.string (some t), rest) := by
  have hspace : skipSpace ('"' :: (t.flatMap escapeChar ++ '"' :: rest)) =
      '"' :: (t.flatMap escapeChar ++ '"' :: rest) := rfl
  rw [quote_append, readValue, hspace]
  simp only [readString_escaped]
  rfl

/-- A piece of text that a reader takes for a value, whatever stands behind it. -/
def Spells (item : Text → Option (α × Text)) (written : Text) (value : α) : Prop :=
  ∀ rest, item (written ++ rest) = some (value, rest)

theorem intercalate_cons_cons (w w' : Text) (ws : List Text) :
    [','].intercalate (w :: w' :: ws) = w ++ ',' :: [','].intercalate (w' :: ws) := by
  simp [List.intercalate]

theorem length_le_intercalate (ws : List Text) :
    ws.length ≤ ([','].intercalate ws).length + 1 := by
  match ws with
  | [] => simp
  | [w] => simp
  | w :: w' :: ws =>
    have ih := length_le_intercalate (w' :: ws)
    rw [intercalate_cons_cons]
    simp only [List.length_cons, List.length_append] at ih ⊢
    omega

theorem readItems_intercalate {item : Text → Option (α × Text)} {close : Char} {tail rest : Text}
    (hclose : close ≠ ',') (htail : skipSpace tail = close :: rest) {written : List Text}
    {values : List α} (h : List.Forall₂ (Spells item) written values) (hne : written ≠ [])
    (hn : written.length ≤ n) :
    readItems item close n ([','].intercalate written ++ tail) = some (values, rest) := by
  induction h generalizing n with
  | nil => exact absurd rfl hne
  | @cons w v ws vs hw hws ih =>
    obtain ⟨m, rfl⟩ : ∃ m, n = m + 1 := ⟨n - 1, by simp only [List.length_cons] at hn; omega⟩
    cases hws with
    | nil =>
      have hw : item (w ++ tail) = some (v, tail) := hw tail
      simp [readItems, hw, htail]
    | @cons w' v' ws vs hw' hws =>
      have hmore := ih (List.cons_ne_nil _ _) (Nat.le_of_succ_le_succ hn)
      have hw : item (w ++ ',' :: ([','].intercalate (w' :: ws) ++ tail)) = some (v, _) := hw _
      rw [intercalate_cons_cons, List.append_assoc, List.cons_append]
      simp [readItems, hw, skipSpace, isSpace, hmore]

def Opens (written : Text) : Prop := ∀ rest, ∃ more, skipSpace (written ++ rest) = '"' :: more

theorem opens_line (indent : Nat) (t more : Text) : Opens (newline indent ++ quote t ++ more) := by
  intro rest
  refine ⟨t.flatMap escapeChar ++ '"' :: (more ++ rest), ?_⟩
  rw [List.append_assoc, List.append_assoc, skipSpace_newline, quote_append]
  rfl

theorem Opens.intercalate {written : List Text} (h : ∀ w ∈ written, Opens w) (hne : written ≠ []) :
    Opens ([','].intercalate written) := by
  intro rest
  match written with
  | [w] => simpa using h w (by simp) rest
  | w :: w' :: ws =>
    rw [intercalate_cons_cons, List.append_assoc]
    exact h w (by simp) _

theorem readList_intercalate {item : Text → Option (α × Text)} {close : Char} {tail rest : Text}
    (hclose : close = ']' ∨ close = '}') (htail : skipSpace tail = close :: rest)
    {written : List Text} {values : List α} (h : List.Forall₂ (Spells item) written values)
    (hopens : ∀ w ∈ written, Opens w) (hne : written ≠ []) (hn : written.length ≤ n) :
    readList item close n ([','].intercalate written ++ tail) = some (values, rest) := by
  have hcomma : close ≠ ',' := by obtain rfl | rfl := hclose <;> decide
  have hquote : '"' ≠ close := by obtain rfl | rfl := hclose <;> decide
  obtain ⟨more, hmore⟩ := Opens.intercalate hopens hne tail
  unfold readList
  simp only [hmore]
  rw [if_neg hquote, readItems_intercalate hcomma htail h hne hn]

theorem readList_lines {item : Text → Option (α × Text)} {close : Char}
    (hclose : close = ']' ∨ close = '}') {written : List Text} {values : List α}
    (h : List.Forall₂ (Spells item) written values) (hopens : ∀ w ∈ written, Opens w)
    (hne : written ≠ []) (hn : written.length ≤ n) (indent : Nat) (rest : Text) :
    readList item close n ([','].intercalate written ++ (newline indent ++ close :: rest)) =
      some (values, rest) := by
  have htail : skipSpace (newline indent ++ close :: rest) = close :: rest := by
    rw [skipSpace_newline]
    obtain rfl | rfl := hclose <;> rfl
  exact readList_intercalate hclose htail h hopens hne hn

theorem spells_line (n indent : Nat) (t : Text) :
    Spells (readValue (n + 1)) (newline indent ++ quote t) (.string (some t)) := by
  intro rest
  rw [List.append_assoc, readValue_congr (skipSpace_newline indent _), readValue_quote]

theorem spells_writeListLines (indent : Nat) {texts : List Text} (hn : texts.length ≤ n + 2) :
    Spells (readValue (n + 2)) (writeListLines indent texts)
      (.array (texts.map fun t => .string (some t))) := by
  intro rest
  match texts with
  | [] => rfl
  | t :: texts =>
    let lines := (t :: texts).map fun t => newline (indent + 2) ++ quote t
    have hlines : List.Forall₂ (Spells (readValue (n + 1))) lines
        ((t :: texts).map fun t => .string (some t)) := by
      rw [List.forall₂_map_left_iff, List.forall₂_map_right_iff, List.forall₂_same]
      exact fun t _ => spells_line n (indent + 2) t
    have hopens : ∀ w ∈ lines, Opens w := by
      intro w hw
      obtain ⟨t, -, rfl⟩ := List.mem_map.1 hw
      simpa using opens_line (indent + 2) t []
    have hlist := readList_lines (Or.inl rfl) hlines hopens (List.cons_ne_nil _ _)
      (by simpa [lines] using hn) indent rest (n := n + 2)
    have hwritten : writeListLines indent (t :: texts) ++ rest =
        '[' :: ([','].intercalate lines ++ (newline indent ++ ']' :: rest)) := by
      simp [writeListLines, lines]
    have hbracket : skipSpace (writeListLines indent (t :: texts) ++ rest) =
        '[' :: ([','].intercalate lines ++ (newline indent ++ ']' :: rest)) := by
      rw [hwritten]
      rfl
    rw [readValue, hbracket]
    simp only [hlist]
    rfl

theorem spells_writeList {texts : List Text} (hn : texts.length ≤ n + 2) :
    Spells (readValue (n + 2)) (writeList texts)
      (.array (texts.map fun t => .string (some t))) := by
  intro rest
  match texts with
  | [] => rfl
  | t :: texts =>
    have hitems : List.Forall₂ (Spells (readValue (n + 1))) ((t :: texts).map quote)
        ((t :: texts).map fun t => .string (some t)) := by
      rw [List.forall₂_map_left_iff, List.forall₂_map_right_iff, List.forall₂_same]
      exact fun t _ => readValue_quote n t
    have hopens : ∀ w ∈ (t :: texts).map quote, Opens w := by
      intro w hw rest
      obtain ⟨t, -, rfl⟩ := List.mem_map.1 hw
      exact ⟨_, by rw [quote_append]; rfl⟩
    have htail : skipSpace (']' :: rest) = ']' :: rest := rfl
    have hlist := readList_intercalate (Or.inl rfl) htail hitems hopens (List.cons_ne_nil _ _)
      (by simpa using hn) (n := n + 2)
    have hbracket : skipSpace (writeList (t :: texts) ++ rest) =
        '[' :: ([','].intercalate ((t :: texts).map quote) ++ ']' :: rest) := by
      rw [writeList, List.append_assoc]
      rfl
    rw [readValue, hbracket]
    simp only [hlist]
    rfl

theorem spells_behind_space {written : Text} {v : Value} (h : Spells (readValue n) written v) :
    Spells (readValue n) (' ' :: written) v := by
  intro rest
  have hspace : skipSpace (' ' :: written ++ rest) = skipSpace (written ++ rest) := rfl
  rw [readValue_congr hspace, h rest]

theorem spells_member {value : Text → Option (Value × Text)} {written : Text} {v : Value}
    (h : Spells value (' ' :: written) v) (indent : Nat) (key : Text) :
    Spells (readMember value) (newline indent ++ quote key ++ [':', ' '] ++ written)
      (some key, v) := by
  intro rest
  have hkey : skipSpace (newline indent ++ quote key ++ [':', ' '] ++ written ++ rest) =
      '"' :: (key.flatMap escapeChar ++ '"' :: ':' :: ' ' :: (written ++ rest)) := by
    simp only [List.append_assoc, skipSpace_newline]
    rw [quote_append]
    rfl
  have hcolon : skipSpace (':' :: ' ' :: (written ++ rest)) = ':' :: ' ' :: (written ++ rest) := rfl
  have hvalue : value (' ' :: (written ++ rest)) = some (v, rest) := h rest
  unfold readMember
  rw [hkey]
  simp [readString_escaped, hcolon, hvalue]

theorem spells_writeObjectLines {members : List (Text × Text × Value)}
    (h : ∀ m ∈ members, Spells (readValue n) m.2.1 m.2.2) (hn : members.length ≤ n + 1) :
    Spells (readValue (n + 1)) (writeObjectLines (members.map fun m => (m.1, m.2.1)))
      (.object (members.map fun m => (some m.1, m.2.2))) := by
  intro rest
  let lines := members.map fun m => newline 2 ++ quote m.1 ++ [':', ' '] ++ m.2.1
  have hbrace : skipSpace (writeObjectLines (members.map fun m => (m.1, m.2.1)) ++ rest) =
      '{' :: ([','].intercalate lines ++ (newline 0 ++ '}' :: rest)) := by
    have hwritten : writeObjectLines (members.map fun m => (m.1, m.2.1)) ++ rest =
        '{' :: ([','].intercalate lines ++ (newline 0 ++ '}' :: rest)) := by
      simp [writeObjectLines, lines, Function.comp_def]
    rw [hwritten]
    rfl
  have hlist : readList (readMember (readValue n)) '}' (n + 1)
      ([','].intercalate lines ++ (newline 0 ++ '}' :: rest)) =
        some (members.map fun m => (some m.1, m.2.2), rest) := by
    by_cases hne : members = []
    · subst hne
      rfl
    · refine readList_lines (Or.inr rfl) ?_ ?_ ?_ (by simpa [lines] using hn) 0 rest
      · rw [List.forall₂_map_left_iff, List.forall₂_map_right_iff, List.forall₂_same]
        exact fun m hm => spells_member (spells_behind_space (h m hm)) 2 m.1
      · intro w hw
        obtain ⟨m, -, rfl⟩ := List.mem_map.1 hw
        rw [List.append_assoc]
        exact opens_line 2 m.1 _
      · simpa [lines] using hne
  rw [readValue, hbrace]
  simp only [hlist]
  rfl

theorem length_le_writeListLines (indent : Nat) (texts : List Text) :
    texts.length ≤ (writeListLines indent texts).length := by
  match texts with
  | [] => simp
  | t :: texts =>
    have h := length_le_intercalate
      ((t :: texts).map fun t => newline (indent + 2) ++ quote t)
    simp only [writeListLines, List.length_append, List.length_map, List.length_cons] at h ⊢
    omega

theorem length_le_writeList (texts : List Text) : texts.length ≤ (writeList texts).length := by
  have h := length_le_intercalate (texts.map quote)
  simp only [writeList, List.length_append, List.length_map, List.length_cons] at h ⊢
  omega

theorem read_writeList (texts : List Text) :
    read (writeList texts) = some (.array (texts.map fun t => .string (some t))) := by
  -- The text is longer than the list, so there is room enough for reading all items.
  have hlength := length_le_writeList texts
  obtain ⟨n, hn⟩ : ∃ n, (writeList texts).length + 1 = n + 2 := by
    refine ⟨(writeList texts).length - 1, ?_⟩
    simp only [writeList, List.length_append, List.length_cons]
    omega
  have hroom : texts.length ≤ n + 2 := by omega
  have hread := spells_writeList hroom []
  rw [List.append_nil] at hread
  rw [read, hn, hread]
  rfl

theorem Value.text?_eq_some_iff {v : Value} {t : Text} :
    v.text? = some t ↔ v = .string (some t) := by
  cases v <;> simp [text?]

theorem Value.texts?_eq_some_iff {v : Value} {texts : List Text} :
    v.texts? = some texts ↔ v = .array (texts.map fun t => .string (some t)) := by
  cases v with
  | array items =>
    rw [texts?, Value.array.injEq]
    induction items generalizing texts with
    | nil => cases texts <;> simp
    | cons item items ih =>
      simp only [List.mapM_cons, Option.bind_eq_bind, Option.bind_eq_some_iff, Option.pure_def,
        Option.some.injEq, text?_eq_some_iff, ih]
      constructor
      · rintro ⟨t, rfl, texts, rfl, rfl⟩
        rfl
      · intro h
        obtain ⟨t, texts, rfl, rfl, rfl⟩ := List.map_eq_cons_iff.1 h.symm
        exact ⟨t, rfl, texts, rfl, rfl⟩
  | _ => simp [texts?]

end Json

theorem Snapshot.exists_toJson? {snapshot : Snapshot}
    (h : (Utf8.decode? snapshot.root).isSome) : ∃ json, snapshot.toJson? = some json := by
  obtain ⟨root, hroot⟩ := Option.isSome_iff_exists.1 h
  exact ⟨_, by rw [toJson?, hroot]; rfl⟩

theorem Snapshot.read_of_toJson? {s : Snapshot} {json : Text} (h : s.toJson? = some json) :
    ∃ root, Utf8.decode? s.root = some root ∧
      Json.read json = some (.object [(some rootKey, .string (some root)),
        (some propertiesKey, .array (s.properties.names.map fun name => .string (some name)))]) := by
  unfold toJson? at h
  obtain ⟨root, hroot, h⟩ := Option.bind_eq_some_iff.1 h
  refine ⟨root, hroot, ?_⟩
  let names := s.properties.names
  let members : List (Text × Text × Json.Value) :=
    [(rootKey, Json.quote root, .string (some root)),
      (propertiesKey, Json.writeListLines 2 names,
        .array (names.map fun name => .string (some name)))]
  obtain rfl : Json.writeObjectLines (members.map fun m => (m.1, m.2.1)) = json := Option.some.inj h
  generalize hjson : Json.writeObjectLines (members.map fun m => (m.1, m.2.1)) = json
  -- The text is longer than the list, so there is room enough for reading all names.
  have hlength : names.length + 2 ≤ json.length := by
    have hnames := Json.length_le_writeListLines 2 names
    rw [← hjson]
    simp only [Json.writeObjectLines, members, List.intercalate, List.map_cons, List.map_nil,
      List.intersperse_cons_cons, List.intersperse_singleton, List.flatten_cons, List.flatten_nil,
      List.cons_append, List.length_append, List.length_cons]
    omega
  obtain ⟨n, hn⟩ : ∃ n, json.length = n + 2 := ⟨json.length - 2, by omega⟩
  have hspells : ∀ m ∈ members, Json.Spells (Json.readValue (n + 2)) m.2.1 m.2.2 := by
    intro m hm
    obtain rfl | rfl : m = (rootKey, Json.quote root, .string (some root)) ∨
        m = (propertiesKey, Json.writeListLines 2 names,
          .array (names.map fun name => .string (some name))) := by simpa [members] using hm
    · exact Json.readValue_quote (n + 1) root
    · exact Json.spells_writeListLines 2 (by omega)
  have hread := Json.spells_writeObjectLines hspells (by simp [members]) []
  rw [hjson, List.append_nil] at hread
  unfold Json.read
  rw [hn, hread]
  rfl

end StyleVars
