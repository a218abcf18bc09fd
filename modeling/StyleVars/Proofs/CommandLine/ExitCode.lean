import StyleVars.CommandLine.Program
import StyleVars.Proofs.Document.Target
import StyleVars.Proofs.Session.Reports

namespace StyleVars

variable {env : Environment} {file : Path} {text property : Text} {positions : List Position}

theorem Position.isIn_start (t : Text) : (⟨1, 1⟩ : Position).IsIn t :=
  isIn_iff.2 ⟨0, by simp [offsetIn?, dropLines]⟩

theorem Target.forall_effectivePositions (t : Target) :
    (∀ p ∈ t.effectivePositions, p.IsIn text) ↔ ∀ p ∈ t.positions, p.IsIn text := by
  unfold effectivePositions
  cases hpositions : t.positions with
  | nil => simp [Position.isIn_start]
  | cons p rest => rfl

theorem Event.errors_notices (events : List Event) :
    (events.filterMap Event.notice?).filterMap Notice.error? = Session.errors events := by
  unfold Session.errors
  rw [List.filterMap_filterMap]
  congr 1
  funext event
  cases event <;> rfl

namespace CommandLine

def Outcome.errors (o : Outcome) : List (String × Option String) :=
  o.notices.filterMap Notice.error?

/-- The exit code is the number of errors that are shown, which is one at most. With an error,
everything is as it was. -/
structure Outcome.Settled (env : Environment) (o : Outcome) : Prop where
  code_le : o.code ≤ 1
  length_errors : o.errors.length = o.code
  unchanged : o.code = 1 → o.environment = env

namespace Program

open Scan (Holds)

theorem settled_failure (env : Environment) (message : String) (causes : List String) :
    Outcome.Settled env
      { code := 1, notices := [failure message causes], environment := env } where
  code_le := Nat.le_refl 1
  length_errors := rfl
  unchanged _ := rfl

variable {settings : Settings} {root : Path} {snapshot : Snapshot}

def toldOfScan (env : Environment) (settings : Settings) (root : Path) : List Notice :=
  (settings.session.select env root).events.filterMap Event.notice?

theorem runScan_of_error {e : Error} (h : (settings.session.select env root).result = .error e)
    (output : ScanOutput) : runScan env settings root output =
      { code := 1, notices := toldOfScan env settings root, environment := env } := by
  simp only [runScan, h, toldOfScan]

theorem runScan_lines (h : (settings.session.select env root).result = .ok snapshot) (term : Text) :
    runScan env settings root (.lines term) =
      { code := 0, output := (View.ofSnapshot (some snapshot) term).properties,
        notices := toldOfScan env settings root ++
          [.info (View.ofSnapshot (some snapshot) term).message],
        environment := env } := by
  simp only [runScan, h, toldOfScan]

theorem runScan_json {json : Text} (h : (settings.session.select env root).result = .ok snapshot)
    (hjson : snapshot.toJson? = some json) : runScan env settings root .json =
      { code := 0, output := [json], notices := toldOfScan env settings root,
        environment := env } := by
  simp only [runScan, h, hjson, toldOfScan]

theorem runScan_json_none (h : (settings.session.select env root).result = .ok snapshot)
    (hjson : snapshot.toJson? = none) : runScan env settings root .json =
      { code := 1,
        notices := toldOfScan env settings root ++
          [failure "path contains invalid UTF-8 characters" []],
        environment := env } := by
  simp only [runScan, h, hjson, toldOfScan]

theorem settled_runScan (env : Environment) (settings : Settings) (root : Path)
    (output : ScanOutput) : (runScan env settings root output).Settled env := by
  have hreported := Session.reported_select env settings.session root
  have htold : (toldOfScan env settings root).filterMap Notice.error? =
      Session.errors (settings.session.select env root).events := Event.errors_notices _
  cases hresult : (settings.session.select env root).result with
  | error e =>
    rw [hresult] at hreported
    obtain ⟨message, -, herrors⟩ := hreported
    rw [runScan_of_error hresult]
    refine ⟨Nat.le_refl 1, ?_, fun _ => rfl⟩
    rw [Outcome.errors, htold, herrors]
    rfl
  | ok snapshot =>
    rw [hresult] at hreported
    have hnone : (toldOfScan env settings root).filterMap Notice.error? = [] :=
      htold.trans hreported
    cases output with
    | lines term =>
      rw [runScan_lines hresult]
      refine ⟨Nat.zero_le 1, ?_, nofun⟩
      rw [Outcome.errors, List.filterMap_append, hnone]
      rfl
    | json =>
      cases hjson : snapshot.toJson? with
      | some json =>
        rw [runScan_json hresult hjson]
        refine ⟨Nat.zero_le 1, ?_, nofun⟩
        rw [Outcome.errors, hnone]
        rfl
      | none =>
        rw [runScan_json_none hresult hjson]
        refine ⟨Nat.le_refl 1, ?_, fun _ => rfl⟩
        rw [Outcome.errors, List.filterMap_append, hnone]
        rfl

theorem runInsert_cases (env : Environment) (property : Text) (file : Path)
    (positions : List Position) :
    (Property.isName property = true ∧
      (∃ text, Holds env file text ∧ ∀ p ∈ positions, p.IsIn text) ∧
      ∃ env' message, runInsert env property file positions =
        { code := 0, notices := [.success message], environment := env' }) ∨
    ¬ (Property.isName property = true ∧
      ∃ text, Holds env file text ∧ ∀ p ∈ positions, p.IsIn text) ∧
      ∃ message causes, runInsert env property file positions =
        { code := 1, notices := [failure message causes], environment := env } := by
  unfold runInsert
  by_cases hname : Property.isName property = true
  · rw [if_pos hname]
    have hfits : (∃ file' text, Target.Fits ⟨some file, positions⟩ env file' text) ↔
        ∃ text, Holds env file text ∧ ∀ p ∈ positions, p.IsIn text := by
      constructor
      · rintro ⟨file', text, hfile, hholds, hin⟩
        obtain rfl : file = file' := Option.some.inj hfile
        exact ⟨text, hholds, (Target.forall_effectivePositions _).1 hin⟩
      · rintro ⟨text, hholds, hin⟩
        exact ⟨file, text, rfl, hholds, (Target.forall_effectivePositions _).2 hin⟩
    by_cases hholds : ∃ text, Holds env file text ∧ ∀ p ∈ positions, p.IsIn text
    · obtain ⟨file', text, hfits⟩ := hfits.2 hholds
      obtain ⟨env', hinsert, -⟩ := hfits.insert_eq property
      exact Or.inl ⟨hname, hholds, env', _, by rw [hinsert]⟩
    · obtain ⟨e, hinsert⟩ := Target.exists_insert_eq_error (t := ⟨some file, positions⟩) nofun
        (hfits.not.2 hholds) property
      exact Or.inr ⟨fun h => hholds h.2, _, _, by rw [hinsert]⟩
  · rw [if_neg hname]
    exact Or.inr ⟨fun h => hname h.1, _, _, rfl⟩

theorem settled_runInsert (env : Environment) (property : Text) (file : Path)
    (positions : List Position) : (runInsert env property file positions).Settled env := by
  obtain ⟨-, -, env', message, h⟩ | ⟨-, message, causes, h⟩ :=
    runInsert_cases env property file positions
  · rw [h]
    exact ⟨Nat.zero_le 1, rfl, nofun⟩
  · rw [h]
    exact settled_failure env message causes

theorem runInsert_code_eq_zero :
    (runInsert env property file positions).code = 0 ↔ Property.isName property = true ∧
      ∃ text, Holds env file text ∧ ∀ p ∈ positions, p.IsIn text := by
  obtain ⟨hname, hholds, env', message, h⟩ | ⟨hnot, message, causes, h⟩ :=
    runInsert_cases env property file positions
  · rw [h]
    exact iff_of_true rfl ⟨hname, hholds⟩
  · rw [h]
    exact iff_of_false nofun hnot

theorem run_of_read {args : List Bytes} {i : Invocation} (h : read args = .ok i)
    (env : Environment) (keys : List Terminal.Key) : run env keys args = invoke env keys i := by
  rw [run, h]

theorem invoke_of_load {i : Invocation} (h : Settings.load env i.settings = .ok settings)
    (keys : List Terminal.Key) : invoke env keys i = runCommand env settings keys i.command := by
  rw [invoke, h]

theorem invoke_of_error {i : Invocation} {e : Error} (h : Settings.load env i.settings = .error e)
    (keys : List Terminal.Key) : invoke env keys i =
      { code := 1, notices := [failure e.message e.causes], environment := env } := by
  rw [invoke, h]

theorem settled_invoke {i : Invocation} (hcommand : ∀ root target, i.command ≠ .browse root target)
    (env : Environment) (keys : List Terminal.Key) : (invoke env keys i).Settled env := by
  cases hload : Settings.load env i.settings with
  | error e =>
    rw [invoke_of_error hload]
    exact settled_failure env e.message e.causes
  | ok settings =>
    rw [invoke_of_load hload]
    cases hi : i.command with
    | scan root output => exact settled_runScan env settings root output
    | insert property file positions => exact settled_runInsert env property file positions
    | browse root target => exact absurd hi (hcommand root target)

/-- How a scan or an insertion ends. A failure is shown once, whoever notices it, and it leaves
every file as it was. An insertion succeeds exactly when nothing stands in its way. -/
theorem exit_code_tells (env : Environment) (keys : List Terminal.Key) {args : List Bytes}
    {i : Invocation} (hread : read args = .ok i)
    (hcommand : ∀ root target, i.command ≠ .browse root target) :
    let o := run env keys args
    (o.code = 0 ∧ o.errors = [] ∨
      o.code = 1 ∧ (∃ shown, o.errors = [shown]) ∧ o.environment = env) ∧
    ∀ property file positions, i.command = .insert property file positions →
      (o.code = 0 ↔
        (∃ settings, Settings.load env i.settings = .ok settings) ∧
        Property.isName property = true ∧
        ∃ text, Holds env file text ∧ ∀ p ∈ positions, p.IsIn text) := by
  rw [run_of_read hread]
  intro o
  refine ⟨?_, fun property file positions hinsert => ?_⟩
  · obtain ⟨hle, hlength, hsame⟩ : o.Settled env := settled_invoke hcommand env keys
    obtain hcode | hcode : o.code = 0 ∨ o.code = 1 := by omega
    · exact Or.inl ⟨hcode, List.eq_nil_of_length_eq_zero (hlength.trans hcode)⟩
    · exact Or.inr ⟨hcode, List.length_eq_one_iff.1 (hlength.trans hcode), hsame hcode⟩
  · cases hload : Settings.load env i.settings with
    | error e =>
      have ho : o = { code := 1, notices := [failure e.message e.causes], environment := env } :=
        invoke_of_error hload keys
      rw [ho]
      exact iff_of_false nofun fun h => nomatch h.1
    | ok settings =>
      have ho : o = runInsert env property file positions := by
        change invoke env keys i = _
        rw [invoke_of_load hload, hinsert]
        rfl
      rw [ho, runInsert_code_eq_zero]
      exact ⟨fun h => ⟨⟨settings, rfl⟩, h⟩, And.right⟩

theorem exit_code_tells_place_outside :
    let a : Name := (Name.ofBytes? [0x61]).get rfl
    let env : Environment :=
      { tree := { nodes := [([a], .file [0x78])] }, current := some [], home := none,
        configHome := none }
    let args := ["insert", "--x", "--file", "a", "--at", "1:2,2:1"].map word
    let x : Text := ['-', '-', 'x']
    let i : Invocation := ⟨none, .insert x [0x61] [⟨1, 2⟩, ⟨2, 1⟩]⟩
    let o := run env [] args
    read args = .ok i ∧ (∀ root target, i.command ≠ .browse root target) ∧
    o.code = 1 ∧ (∃ shown, o.errors = [shown]) ∧ o.environment = env := by
  intro a env args x i o
  have hread : read args = .ok i := by rfl
  have hcommand : ∀ root target, i.command ≠ .browse root target := nofun
  obtain ⟨⟨hcode, -⟩ | h, -⟩ := exit_code_tells env [] hread hcommand
  · exact absurd hcode (by decide +kernel)
  · exact ⟨hread, hcommand, h⟩

end Program

end CommandLine

end StyleVars
