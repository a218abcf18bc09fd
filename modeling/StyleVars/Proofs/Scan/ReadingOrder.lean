import StyleVars.Proofs.Attempt
import StyleVars.Proofs.PropertySet.Order
import StyleVars.Proofs.Text.Utf8
import StyleVars.Proofs.Scan.Reading

namespace StyleVars.Scan

variable {env : Environment} {options : ScanOptions} {root : Path}

def Holds (env : Environment) (p : Path) (t : Text) : Prop := env.readBytes p = .ok (Utf8.encode t)

theorem readText_eq_ok {p : Path} {t : Text} : env.readText p = .ok t ↔ Holds env p t := by
  unfold Environment.readText Holds
  rw [Attempt.bind_eq_ok]
  constructor
  · rintro ⟨bytes, hbytes, h⟩
    cases hdecode : Utf8.decode? bytes with
    | none =>
      rw [hdecode] at h
      cases h
    | some t' =>
      rw [hdecode] at h
      cases h
      rw [hbytes, Utf8.decode?_eq_some_iff.1 hdecode]
  · intro h
    refine ⟨_, h, ?_⟩
    rw [Utf8.decode?_encode]
    rfl

theorem readText_error_iff {p : Path} :
    (∃ cause, env.readText p = .error cause) ↔ ∀ t, ¬ Holds env p t := by
  constructor
  · rintro ⟨cause, hcause⟩ t ht
    cases hcause.symm.trans (readText_eq_ok.2 ht)
  · intro h
    cases hread : env.readText p with
    | ok t => exact absurd (readText_eq_ok.1 hread) (h t)
    | error cause => exact ⟨cause, rfl⟩

theorem readProperties_eq_ok {p : Path} {names : List Text} :
    readProperties env p = .ok names ↔ ∃ t, env.readText p = .ok t ∧ Property.tokens t = names := by
  unfold readProperties
  rw [Attempt.bind_eq_ok]
  constructor
  · rintro ⟨t, ht, h⟩
    exact ⟨t, Attempt.mapError_eq_ok.1 ht, Except.ok.inj h⟩
  · rintro ⟨t, ht, rfl⟩
    exact ⟨t, Attempt.mapError_eq_ok.2 ht, rfl⟩

theorem readProperties_eq_error {p : Path} {e : Error} :
    readProperties env p = .error e ↔
      ∃ cause, env.readText p = .error cause ∧ .readStylesheet p cause = e := by
  unfold readProperties
  rw [Attempt.bind_eq_error]
  constructor
  · rintro (h | ⟨t, -, h⟩)
    · exact Attempt.mapError_eq_error.1 h
    · cases h
  · intro h
    exact Or.inl (Attempt.mapError_eq_error.2 h)

theorem scan_eq_collect {files : List Path} (h : discover env options root = .ok files) :
    scan env options root = collect env files := by
  unfold scan
  rw [h]
  rfl

namespace Reading

variable {room : Nat} {r r' : Reading}

def rest (r : Reading) : List Path := r.waiting ++ r.open_

def toGo (r : Reading) : Nat := 2 * r.waiting.length + r.open_.length

theorem Step.toGo_lt (h : Step env room r r') : r'.toGo < r.toGo := by
  cases h with
  | begin hroom =>
    simp only [toGo, List.length_cons, List.length_append, List.length_nil]
    omega
  | finish hread =>
    simp only [toGo, List.length_cons, List.length_append]
    omega

theorem step_wellFounded (env : Environment) (room : Nat) :
    WellFounded fun r' r : Reading => Step env room r r' :=
  Subrelation.wf Step.toGo_lt (InvImage.wf toGo Nat.lt_wfRel.wf)

theorem Step.finish_first {p : Path} {waiting opened : List Path} {found : List (List Text)}
    {names : List Text} (hread : readProperties env p = .ok names) :
    Step env room ⟨waiting, p :: opened, found⟩ ⟨waiting, opened, found ++ [names]⟩ := by
  have h : Step env room ⟨waiting, [] ++ p :: opened, found⟩
    ⟨waiting, [] ++ opened, found ++ [names]⟩ := .finish hread
  exact h

theorem ends_or_steps (hroom : 0 < room) (r : Reading) :
    (∃ result, Ends env room r result) ∨ ∃ r', Step env room r r' := by
  obtain ⟨waiting, opened, found⟩ := r
  cases opened with
  | cons p opened =>
    cases hp : readProperties env p with
    | ok names => exact Or.inr ⟨_, Step.finish_first hp⟩
    | error e => exact Or.inl ⟨_, .failed (by simp) hp⟩
  | nil =>
    cases waiting with
    | nil => exact Or.inl ⟨_, .collected⟩
    | cons p waiting => exact Or.inr ⟨_, .begin hroom⟩

theorem exists_ends (hroom : 0 < room) (r : Reading) : ∃ result, Ends env room r result := by
  induction r using (step_wellFounded env room).induction with
  | _ r ih =>
    obtain h | ⟨r', hr⟩ := ends_or_steps hroom r
    · exact h
    · obtain ⟨result, h⟩ := ih r' hr
      exact ⟨result, .step hr h⟩

/-- Opening the stylesheets one by one, in their order, gives the result of `collect`. -/
theorem ends_mapM (hroom : 0 < room) (files : List Path) (found : List (List Text)) :
    Ends env room ⟨files, [], found⟩ (do
      let more ← files.mapM (readProperties env)
      pure (.ofList (found ++ more).flatten)) := by
  induction files generalizing found with
  | nil =>
    have h : Ends env room ⟨[], [], found⟩ (.ok (.ofList found.flatten)) := .collected
    simpa [bind, Except.bind, pure, Except.pure] using h
  | cons p files ih =>
    refine .step (.begin hroom) ?_
    rw [List.mapM_cons]
    cases hp : readProperties env p with
    | error e => exact .failed (by simp) hp
    | ok names =>
      refine .step (Step.finish_first hp) ?_
      have h := ih (found ++ [names])
      cases hm : files.mapM (readProperties env) with
      | error e => simpa [hm, bind, Except.bind] using h
      | ok more => simpa [hm, bind, Except.bind, pure, Except.pure] using h

theorem ends_collect (hroom : 0 < room) (files : List Path) :
    Ends env room { waiting := files } (collect env files) := ends_mapM hroom files []

/-- What is found in the stylesheets that are done, and what will be found in the others. -/
def Yields (env : Environment) (r : Reading) (x : Text) : Prop :=
  x ∈ r.found.flatten ∨ ∃ p ∈ r.rest, ∃ names, readProperties env p = .ok names ∧ x ∈ names

theorem Step.yields_iff (h : Step env room r r') (x : Text) : Yields env r' x ↔ Yields env r x := by
  cases h with
  | begin hroom => simp [Yields, rest, or_comm, or_left_comm]
  | @finish p waiting before after found names hread =>
    have hp : (∃ ns, readProperties env p = .ok ns ∧ x ∈ ns) ↔ x ∈ names := by simp [hread]
    simp only [Yields, rest, List.flatten_append, List.mem_append, List.flatten_cons,
      List.flatten_nil, List.append_nil, List.mem_cons]
    constructor
    · rintro ((h | h) | ⟨q, hq, h⟩)
      · exact Or.inl h
      · exact Or.inr ⟨p, by simp, hp.2 h⟩
      · exact Or.inr ⟨q, by tauto, h⟩
    · rintro (h | ⟨q, hq, h⟩)
      · exact Or.inl (Or.inl h)
      · by_cases hqp : q = p
        · exact Or.inl (Or.inr (hp.1 (hqp ▸ h)))
        · exact Or.inr ⟨q, by tauto, h⟩

theorem Step.unreadable_iff (h : Step env room r r') {p : Path} {e : Error}
    (hp : readProperties env p = .error e) : p ∈ r'.rest ↔ p ∈ r.rest := by
  cases h with
  | begin hroom => simp [rest, or_comm, or_left_comm]
  | @finish q waiting before after found names hread =>
    have hne : p ≠ q := by
      rintro rfl
      cases hp.symm.trans hread
    simp [rest, hne]

theorem Ends.yields_iff {s : PropertySet} (h : Ends env room r (.ok s)) (x : Text) :
    x ∈ s.toList ↔ Yields env r x := by
  generalize hresult : Except.ok s = result at h
  induction h with
  | @collected found =>
    cases hresult
    simp [Yields, rest]
  | failed hp hread => cases hresult
  | step hstep hends ih => rw [ih hresult, hstep.yields_iff]

theorem Ends.readable {s : PropertySet} (h : Ends env room r (.ok s)) {p : Path} (hp : p ∈ r.rest)
    (e : Error) : readProperties env p ≠ .error e := by
  intro he
  generalize hresult : Except.ok s = result at h
  induction h with
  | collected => simp [rest] at hp
  | failed hp hread => cases hresult
  | step hstep hends ih => exact ih ((hstep.unreadable_iff he).2 hp) hresult

theorem Ends.unreadable {e : Error} (h : Ends env room r (.error e)) :
    ∃ p ∈ r.rest, readProperties env p = .error e := by
  generalize hresult : Except.error e = result at h
  induction h with
  | collected => cases hresult
  | @failed p waiting opened found e' hp hread =>
    cases hresult
    exact ⟨p, by simp [rest, hp], hread⟩
  | step hstep hends ih =>
    obtain ⟨p, hp, he⟩ := ih hresult
    exact ⟨p, (hstep.unreadable_iff he).1 hp, he⟩

theorem Ends.exists_ok {files : List Path} {result : Except Error PropertySet}
    (hfiles : ∀ p ∈ files, ∃ t, Holds env p t) (h : Ends env room { waiting := files } result) :
    ∃ s, result = .ok s := by
  cases result with
  | ok s => exact ⟨s, rfl⟩
  | error e =>
    obtain ⟨p, hp, he⟩ := h.unreadable
    obtain ⟨t, ht⟩ := hfiles p (by simpa [rest] using hp)
    cases he.symm.trans (readProperties_eq_ok.2 ⟨t, readText_eq_ok.2 ht, rfl⟩)

theorem Ends.mem_iff {files : List Path} {s : PropertySet}
    (h : Ends env room { waiting := files } (.ok s)) (x : Text) :
    x ∈ s.toList ↔ ∃ p ∈ files, ∃ t, Holds env p t ∧ x ∈ Property.tokens t := by
  rw [h.yields_iff]
  simp [Yields, rest, readProperties_eq_ok, readText_eq_ok]

theorem Ends.exists_error {files : List Path} {result : Except Error PropertySet} {p : Path}
    (hp : p ∈ files) (hbad : ∀ t, ¬ Holds env p t)
    (h : Ends env room { waiting := files } result) :
    ∃ q ∈ files, (∀ t, ¬ Holds env q t) ∧
      ∃ cause, env.readText q = .error cause ∧ result = .error (.readStylesheet q cause) := by
  cases result with
  | ok s =>
    obtain ⟨cause, hcause⟩ := readText_error_iff.2 hbad
    exact absurd (readProperties_eq_error.2 ⟨cause, hcause, rfl⟩)
      (h.readable (by simpa [rest] using hp) _)
  | error e =>
    obtain ⟨q, hq, he⟩ := h.unreadable
    obtain ⟨cause, hcause, rfl⟩ := readProperties_eq_error.1 he
    exact ⟨q, by simpa [rest] using hq, readText_error_iff.1 ⟨cause, hcause⟩, cause, hcause, rfl⟩

end Reading

/-- What a scan comes to once the stylesheets are found, in whatever order they are done. It can
neither go on forever nor get stuck, and each of its possible ends is the set of all tokens when
every stylesheet holds a text, and the failure of one that does not otherwise. -/
theorem reading_result {files : List Path} {room : Nat}
    (hfiles : discover env options root = .ok files) (hroom : 0 < room) :
    let Result := Reading.Ends env room { waiting := files }
    (WellFounded fun r' r => Reading.Step env room r r') ∧
    (∀ r, ∃ result, Reading.Ends env room r result) ∧
    Result (scan env options root) ∧
    ((∃ s, scan env options root = .ok s) ↔ ∀ p ∈ files, ∃ t, Holds env p t) ∧
    ((∀ p ∈ files, ∃ t, Holds env p t) → ∃ s : PropertySet,
      (∀ result, Result result ↔ result = .ok s) ∧
      s.toList.Pairwise (List.Lex fun a b => a.toNat < b.toNat) ∧
      ∀ x, x ∈ s.toList ↔ ∃ p ∈ files, ∃ t, Holds env p t ∧ x ∈ Property.tokens t) ∧
    ((∃ p ∈ files, ∀ t, ¬ Holds env p t) → ∀ result, Result result →
      ∃ p ∈ files, (∀ t, ¬ Holds env p t) ∧
        ∃ cause, env.readText p = .error cause ∧ result = .error (.readStylesheet p cause)) := by
  intro Result
  have hscan : Result (scan env options root) := by
    rw [scan_eq_collect hfiles]
    exact Reading.ends_collect hroom files
  refine ⟨Reading.step_wellFounded env room, Reading.exists_ends hroom, hscan,
    ⟨?_, fun h => hscan.exists_ok h⟩, fun h => ?_,
    fun ⟨p, hp, hbad⟩ result h => h.exists_error hp hbad⟩
  · rintro ⟨s, hs⟩
    by_contra h
    push Not at h
    obtain ⟨p, hp, hbad⟩ := h
    obtain ⟨q, -, -, cause, -, he⟩ := hscan.exists_error hp hbad
    cases hs.symm.trans he
  · obtain ⟨s, hs⟩ := hscan.exists_ok h
    rw [hs] at hscan
    refine ⟨s, fun result => ⟨fun hresult => ?_, fun hresult => hresult ▸ hscan⟩,
      s.ascending_codePoints, hscan.mem_iff⟩
    obtain ⟨s', rfl⟩ := hresult.exists_ok h
    have hsame : s' = s := PropertySet.eq_of_mem_iff fun x => by rw [hresult.mem_iff, hscan.mem_iff]
    rw [hsame]

theorem reading_result_two_files :
    let w : Name := (Name.ofBytes? [0x77]).get rfl
    let a : Name := (Name.ofBytes? [0x61, 0x2e, 0x63, 0x73, 0x73]).get rfl
    let b : Name := (Name.ofBytes? [0x62, 0x2e, 0x63, 0x73, 0x73]).get rfl
    let y : Bytes := [0x2d, 0x2d, 0x79, 0x20, 0x2d, 0x2d, 0x78]
    let good : Environment :=
      { tree := { nodes :=
          [([w], .folder), ([w, a], .file y), ([w, b], .file [0x2d, 0x2d, 0x78])] },
        current := some [], home := none, configHome := none }
    let bad : Environment :=
      { good with tree := { nodes := [([w], .folder), ([w, a], .file y), ([w, b], .file [0xff])] } }
    let root : Path := [0x2f, 0x77]
    let files : List Path := [root.join a.bytes, root.join b.bytes]
    let names : List Text := [['-', '-', 'y'], ['-', '-', 'x'], ['-', '-', 'x']]
    discover good {} root = .ok files ∧ discover bad {} root = .ok files ∧
    (∀ result, Reading.Ends good 2 { waiting := files } result ↔ result = .ok (.ofList names)) ∧
    ∀ result, Reading.Ends bad 2 { waiting := files } result →
      result = .error (.readStylesheet (root.join b.bytes) .notUtf8) := by
  intro w a b y good bad root files names
  have hgood : discover good {} root = .ok files := by decide +kernel
  have hbad : discover bad {} root = .ok files := by decide +kernel
  refine ⟨hgood, hbad, ?_, ?_⟩
  · obtain ⟨-, -, hscan, hok, hset, -⟩ := reading_result hgood Nat.two_pos
    have hread : files.mapM (readProperties good) =
      .ok [[['-', '-', 'y'], ['-', '-', 'x']], [['-', '-', 'x']]] := by decide +kernel
    have hs : scan good {} root = .ok (.ofList names) := by
      rw [scan_eq_collect hgood, collect, hread]
      rfl
    obtain ⟨s, hs', -⟩ := hset (hok.1 ⟨_, hs⟩)
    rw [(hs' _).1 hscan] at hs
    rw [← hs]
    exact hs'
  · obtain ⟨-, -, -, -, -, herror⟩ := reading_result hbad Nat.two_pos
    have hreada : Holds bad (root.join a.bytes) ['-', '-', 'y', ' ', '-', '-', 'x'] := by
      unfold Holds
      decide +kernel
    have hreadb : bad.readText (root.join b.bytes) = .error .notUtf8 := by decide +kernel
    have hb : ∀ t, ¬ Holds bad (root.join b.bytes) t := readText_error_iff.1 ⟨_, hreadb⟩
    intro result hresult
    obtain ⟨p, hp, hp', cause, hcause, rfl⟩ := herror ⟨_, by simp [files], hb⟩ result hresult
    have hpb : p = root.join b.bytes := by
      obtain rfl | hp := List.mem_cons.1 hp
      · exact absurd hreada (hp' _)
      · simpa using hp
    rw [hpb] at hcause ⊢
    cases hreadb.symm.trans hcause
    rfl

end StyleVars.Scan
