import StyleVars.Document.Target
import StyleVars.Proofs.Document.Place
import StyleVars.Proofs.Environment.Rewriting
import StyleVars.Proofs.Scan.ReadingOrder

namespace StyleVars.Target

open Scan (Holds)

variable {t : Target} {env : Environment} {file : Path} {text text' property : Text}

/-- The target's file has this text, and the text has all positions. -/
structure Fits (t : Target) (env : Environment) (file : Path) (text : Text) : Prop where
  file_eq : t.file = some file
  holds : Holds env file text
  isIn : ∀ p ∈ t.effectivePositions, p.IsIn text

/-- The text with a reference at the place of each position, as often as the position is listed. -/
def inserted (t : Target) (text property : Text) : Text :=
  Text.withCopies
    (fun before after => t.effectivePositions.countP (Position.between? before after = some ·))
    (Property.reference property) [] text

theorem locate_eq_ok {p : Position} {s : Selection} : locate file text p = .ok s ↔
    ∃ offset, p.offsetIn? text = some offset ∧ Selection.cursor offset = s := by
  unfold locate
  cases p.offsetIn? text with
  | none => simp
  | some offset => simp

theorem locate_isOk_iff {p : Position} : (∃ s, locate file text p = .ok s) ↔ p.IsIn text := by
  simp [locate_eq_ok, Position.isIn_iff]

theorem count_active {before after : Text} {positions : List Position} {cursors : List Selection}
    (h : List.Forall₂ (fun p s => locate file (before ++ after) p = .ok s) positions cursors) :
    (cursors.map Selection.active).count before.byteSize =
      positions.countP (Position.between? before after = some ·) := by
  induction h with
  | nil => rfl
  | @cons p s positions cursors hp hrest ih =>
    obtain ⟨offset, hoffset, rfl⟩ := locate_eq_ok.1 hp
    have hplace := Position.eq_byteSize_iff hoffset
    rw [List.map_cons, List.count_cons, List.countP_cons, ih]
    simp [Selection.cursor, hplace]

theorem isBoundary_of_locate {p : Position} {s : Selection} (h : locate file text p = .ok s) :
    ∀ o ∈ s.ends, text.isBoundary o = true := by
  intro o ho
  obtain ⟨offset, hoffset, rfl⟩ := locate_eq_ok.1 h
  obtain ⟨before, after, heq, -, hsize⟩ := Position.offsetIn?_eq_some.1 hoffset
  obtain rfl : o = offset := by simpa [Selection.ends, Selection.cursor] using ho
  exact Text.isBoundary_iff.2 ⟨before, after, heq, hsize⟩

theorem edit_of_located {cursors : List Selection} (property : Text)
    (h : t.effectivePositions.mapM (locate file text) = .ok cursors) :
    t.edit file text property = .ok (t.inserted text property) := by
  have hends : ∀ s ∈ cursors, ∀ o ∈ s.ends, text.isBoundary o = true := by
    intro s hs
    obtain ⟨p, -, hp⟩ := (Attempt.mem_iff_of_mapM_eq_ok h).1 hs
    exact isBoundary_of_locate hp
  have hactive : ∀ o ∈ cursors.map Selection.active, text.isBoundary o = true := by
    intro o ho
    obtain ⟨s, hs, rfl⟩ := List.mem_map.1 ho
    exact hends s hs s.active (by simp [Selection.ends])
  have hselect := Buffer.select_eq_ok (b := { text }).2 ⟨hends, rfl⟩
  have hinsert := Buffer.insertAll_eq_ok ⟨text, cursors⟩ (Property.reference property) hactive
  refine Attempt.bind_eq_ok.2 ⟨cursors, h, Attempt.bind_eq_ok.2
    ⟨_, Attempt.mapError_eq_ok.2 hselect, Attempt.bind_eq_ok.2
      ⟨_, Attempt.mapError_eq_ok.2 hinsert, ?_⟩⟩⟩
  refine congrArg Except.ok (Text.withCopies_congr fun x y heq => ?_)
  obtain rfl : text = x ++ y := heq
  exact count_active (Attempt.mapM_eq_ok.1 h)

theorem edit_eq_ok : t.edit file text property = .ok text' ↔
    (∀ p ∈ t.effectivePositions, p.IsIn text) ∧ t.inserted text property = text' := by
  have hlocated : (∃ cursors, t.effectivePositions.mapM (locate file text) = .ok cursors) ↔
      ∀ p ∈ t.effectivePositions, p.IsIn text := by
    simp only [Attempt.mapM_isOk_iff, locate_isOk_iff]
  constructor
  · intro h
    obtain ⟨cursors, hcursors, -⟩ := Attempt.bind_eq_ok.1 h
    have hedit := edit_of_located property hcursors
    exact ⟨hlocated.1 ⟨cursors, hcursors⟩, Except.ok.inj (hedit.symm.trans h)⟩
  · rintro ⟨hin, rfl⟩
    obtain ⟨cursors, hcursors⟩ := hlocated.2 hin
    exact edit_of_located property hcursors

theorem newText_eq_ok : t.newText env file property = .ok text' ↔
    ∃ text, Holds env file text ∧ (∀ p ∈ t.effectivePositions, p.IsIn text) ∧
      t.inserted text property = text' := by
  unfold newText
  rw [Attempt.bind_eq_ok]
  simp only [Attempt.mapError_eq_ok, Scan.readText_eq_ok, edit_eq_ok]

theorem insert_of_none (h : t.file = none) (property : Text) :
    t.insert env property = (.ok false, env) := by
  rw [insert, h]

theorem Fits.insert_eq (h : t.Fits env file text) (property : Text) :
    ∃ env', t.insert env property = (.ok true, env') ∧
      env.writeText file (t.inserted text property) = .ok env' ∧
      env.Rewritten env' file (Utf8.encode (t.inserted text property)) := by
  obtain ⟨env', hwrite, hrewritten⟩ :=
    Environment.exists_writeText h.holds (t.inserted text property)
  have hnew : t.newText env file property = .ok (t.inserted text property) :=
    newText_eq_ok.2 ⟨text, h.holds, h.isIn, rfl⟩
  refine ⟨env', ?_, hwrite, hrewritten⟩
  simp only [insert, h.file_eq, hnew, hwrite]

theorem exists_insert_eq_error (hfile : t.file ≠ none) (h : ¬ ∃ file text, t.Fits env file text)
    (property : Text) : ∃ e, t.insert env property = (.error e, env) := by
  obtain ⟨file, hfile⟩ := Option.ne_none_iff_exists'.1 hfile
  cases hnew : t.newText env file property with
  | ok text' =>
    obtain ⟨text, hholds, hin, -⟩ := newText_eq_ok.1 hnew
    exact absurd ⟨file, text, hfile, hholds, hin⟩ h
  | error e => exact ⟨e, by simp only [insert, hfile, hnew]⟩

theorem insert_snd_of_not_fits (h : ¬ ∃ file text, t.Fits env file text) (property : Text) :
    (t.insert env property).2 = env := by
  by_cases hfile : t.file = none
  · rw [insert_of_none hfile]
  · obtain ⟨e, heq⟩ := exists_insert_eq_error hfile h property
    rw [heq]

theorem insert_cases (t : Target) (env : Environment) (property : Text) :
    (t.file = none ∧ t.insert env property = (.ok false, env)) ∨
    (∃ file text env', t.Fits env file text ∧ t.insert env property = (.ok true, env') ∧
      env.Rewritten env' file (Utf8.encode (t.inserted text property))) ∨
    (t.file ≠ none ∧ ∃ e, t.insert env property = (.error e, env)) := by
  by_cases hfile : t.file = none
  · exact Or.inl ⟨hfile, insert_of_none hfile property⟩
  · by_cases hfits : ∃ file text, t.Fits env file text
    · obtain ⟨file, text, hfits⟩ := hfits
      obtain ⟨env', hinsert, -, hrewritten⟩ := hfits.insert_eq property
      exact Or.inr (Or.inl ⟨file, text, env', hfits, hinsert, hrewritten⟩)
    · exact Or.inr (Or.inr ⟨hfile, exists_insert_eq_error hfile hfits property⟩)

variable {positions : List Position}

theorem effectivePositions_perm (h : positions.Perm t.positions) :
    (effectivePositions ⟨t.file, positions⟩).Perm t.effectivePositions := by
  unfold effectivePositions
  rw [h.isEmpty_eq]
  split
  · exact .refl _
  · exact h

theorem inserted_perm (h : positions.Perm t.positions) :
    inserted ⟨t.file, positions⟩ text property = t.inserted text property := by
  unfold inserted
  simp only [(effectivePositions_perm h).countP_eq]

theorem fits_perm (h : positions.Perm t.positions) :
    Fits ⟨t.file, positions⟩ env file text ↔ t.Fits env file text := by
  have hmem (p : Position) := (effectivePositions_perm h).mem_iff (a := p)
  constructor
  · rintro ⟨hfile, hholds, hin⟩
    exact ⟨hfile, hholds, fun p hp => hin p ((hmem p).2 hp)⟩
  · rintro ⟨hfile, hholds, hin⟩
    exact ⟨hfile, hholds, fun p hp => hin p ((hmem p).1 hp)⟩

theorem insert_snd_perm (h : positions.Perm t.positions) :
    (insert ⟨t.file, positions⟩ env property).2 = (t.insert env property).2 := by
  by_cases hfits : ∃ file text, t.Fits env file text
  · obtain ⟨file, text, hfits⟩ := hfits
    obtain ⟨env₁, heq₁, hwrite₁, -⟩ := hfits.insert_eq property
    obtain ⟨env₂, heq₂, hwrite₂, -⟩ := ((fits_perm h).2 hfits).insert_eq property
    rw [inserted_perm h, hwrite₁] at hwrite₂
    rw [heq₁, heq₂, Except.ok.inj hwrite₂]
  · have hfits' : ¬ ∃ file text, Fits ⟨t.file, positions⟩ env file text := by
      simpa only [fits_perm h] using hfits
    rw [insert_snd_of_not_fits hfits, insert_snd_of_not_fits hfits']

/-- Three answers are possible, and only with `true` a file has changed. What it holds then does not
depend on the order in which the positions are listed. -/
theorem insert_all_or_nothing (t : Target) (env : Environment) (property : Text) :
    ((t.insert env property).1 = .ok true ↔ ∃ file text, t.Fits env file text) ∧
    ((t.insert env property).1 = .ok false ↔ t.file = none) ∧
    ((∃ e, (t.insert env property).1 = .error e) ↔
      t.file ≠ none ∧ ¬ ∃ file text, t.Fits env file text) ∧
    (∀ file text, t.Fits env file text →
      env.Rewritten (t.insert env property).2 file (Utf8.encode (t.inserted text property))) ∧
    ((t.insert env property).1 ≠ .ok true → (t.insert env property).2 = env) ∧
    ∀ positions, positions.Perm t.positions →
      (insert ⟨t.file, positions⟩ env property).2 = (t.insert env property).2 := by
  have hrewritten : ∀ file text, t.Fits env file text →
      env.Rewritten (t.insert env property).2 file (Utf8.encode (t.inserted text property)) := by
    intro file text hfits
    obtain ⟨env', heq, -, hrewritten⟩ := hfits.insert_eq property
    rwa [heq]
  have hsome : (∃ file text, t.Fits env file text) → t.file ≠ none := by
    rintro ⟨file, text, hfits⟩ hnone
    cases hnone.symm.trans hfits.file_eq
  have hperm : ∀ positions, positions.Perm t.positions →
      (insert ⟨t.file, positions⟩ env property).2 = (t.insert env property).2 :=
    fun positions h => insert_snd_perm h
  by_cases hfits : ∃ file text, t.Fits env file text
  · have ⟨file, text, h⟩ := hfits
    obtain ⟨env', heq, -, -⟩ := h.insert_eq property
    rw [heq] at hrewritten hperm ⊢
    exact ⟨iff_of_true rfl hfits, iff_of_false nofun (hsome hfits),
      iff_of_false (fun ⟨_, h⟩ => nomatch h) fun h => h.2 hfits, hrewritten,
      fun h => absurd rfl h, hperm⟩
  by_cases hfile : t.file = none
  · rw [insert_of_none hfile] at hrewritten hperm ⊢
    exact ⟨iff_of_false nofun hfits, iff_of_true rfl hfile,
      iff_of_false (fun ⟨_, h⟩ => nomatch h) fun h => h.1 hfile, hrewritten, fun _ => rfl, hperm⟩
  · obtain ⟨e, heq⟩ := exists_insert_eq_error hfile hfits property
    rw [heq] at hrewritten hperm ⊢
    exact ⟨iff_of_false nofun hfits, iff_of_false nofun hfile,
      iff_of_true ⟨e, rfl⟩ ⟨hfile, hfits⟩, hrewritten, fun _ => rfl, hperm⟩

theorem insert_all_or_nothing_behind_link :
    let a : Name := (Name.ofBytes? [0x61]).get rfl
    let b : Name := (Name.ofBytes? [0x62]).get rfl
    let text : Text := ['é', '\r', '\n', 'x']
    let x : Text := ['-', '-', 'x']
    let env : Environment :=
      { tree := { nodes := [([a], .file (Utf8.encode text)), ([b], .link [0x61])] },
        current := some [], home := none, configHome := none }
    let t : Target := ⟨some [0x62], [⟨2, 2⟩, ⟨1, 2⟩, ⟨2, 2⟩]⟩
    let outside : Target := ⟨some [0x62], [⟨2, 2⟩, ⟨1, 3⟩]⟩
    t.Fits env [0x62] text ∧ (t.insert env x).1 = .ok true ∧
    Holds (t.insert env x).2 [0x62] (['é'] ++ Property.reference x ++ ['\r', '\n', 'x'] ++
      Property.reference x ++ Property.reference x) ∧
    [⟨1, 2⟩, ⟨2, 2⟩, ⟨2, 2⟩].Perm t.positions ∧
    (insert ⟨some [0x62], [⟨1, 2⟩, ⟨2, 2⟩, ⟨2, 2⟩]⟩ env x).2 = (t.insert env x).2 ∧
    (outside.insert env x).1 ≠ .ok true ∧ (outside.insert env x).2 = env := by
  intro a b text x env t outside
  obtain ⟨htrue, -, -, hrewritten, -, hperm⟩ := insert_all_or_nothing t env x
  obtain ⟨-, -, -, -, hsame, -⟩ := insert_all_or_nothing outside env x
  have hholds : Holds env [0x62] text := by
    unfold Holds
    decide +kernel
  have hfound : ∀ p ∈ t.effectivePositions, (p.offsetIn? text).isSome = true := by decide +kernel
  have hfits : t.Fits env [0x62] text := ⟨rfl, hholds, fun p hp =>
    Position.isIn_iff.2 (Option.isSome_iff_exists.1 (hfound p hp))⟩
  have hpositions : [⟨1, 2⟩, ⟨2, 2⟩, ⟨2, 2⟩].Perm t.positions := by decide
  have houtside : (outside.insert env x).1 ≠ .ok true := by decide +kernel
  refine ⟨hfits, htrue.2 ⟨_, _, hfits⟩, ?_, hpositions, hperm _ hpositions, houtside,
    hsame houtside⟩
  have hread := (hrewritten _ _ hfits).read
  have hinserted : t.inserted text x = ['é'] ++ Property.reference x ++ ['\r', '\n', 'x'] ++
      Property.reference x ++ Property.reference x := by decide +kernel
  rwa [hinserted] at hread

end StyleVars.Target
