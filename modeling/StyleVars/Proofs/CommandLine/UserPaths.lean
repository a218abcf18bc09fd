import StyleVars.Proofs.CommandLine.ExitCode
import StyleVars.Proofs.Environment.Spelling
import StyleVars.Proofs.Session.Published

namespace StyleVars

open Scan (Holds)

variable {env : Environment} {p q : Path} {property : Text} {positions : List Position}

/-- Both paths lead to the same text, or neither of them leads to one. -/
def Environment.SameText (env : Environment) (p q : Path) : Prop :=
  ∀ l t, env.find p = .ok (l, .file (Utf8.encode t)) ↔ env.find q = .ok (l, .file (Utf8.encode t))

namespace Environment.SameText

theorem symm (h : env.SameText p q) : env.SameText q p := fun l t => (h l t).symm

theorem holds_iff (h : env.SameText p q) (t : Text) : Holds env p t ↔ Holds env q t := by
  unfold Holds
  simp only [readBytes_eq_ok, h _ t]

end Environment.SameText

theorem Settings.read_eq_ok {file : Path} {settings : Settings} :
    read env file = .ok settings ↔ ∃ t, Holds env file t ∧ ofToml t = .ok settings := by
  unfold read
  rw [Attempt.bind_eq_ok]
  simp only [Attempt.mapError_eq_ok, Scan.readText_eq_ok]

theorem Settings.load_named (env : Environment) (file : Path) :
    load env (some file) = read env file := by
  unfold load
  rfl

namespace Target

theorem exists_insert_of_not_fits (h : ¬ ∃ text, Fits ⟨some p, positions⟩ env p text)
    (property : Text) : ∃ e, insert ⟨some p, positions⟩ env property = (.error e, env) := by
  refine exists_insert_eq_error (t := ⟨some p, positions⟩) nofun (fun hfits => h ?_) property
  obtain ⟨file, text, hfits⟩ := hfits
  obtain rfl : p = file := Option.some.inj hfits.file_eq
  exact ⟨text, hfits⟩

theorem insert_of_fits {l : Location} {text : Text}
    (hfits : Fits ⟨some p, positions⟩ env p text)
    (hfind : env.find p = .ok (l, .file (Utf8.encode text))) (property : Text) :
    let new := inserted ⟨none, positions⟩ text property
    insert ⟨some p, positions⟩ env property =
      (.ok true, { env with tree := env.tree.set l (.file (Utf8.encode new)) }) := by
  obtain ⟨env', hinsert, hwrite, -⟩ := hfits.insert_eq property
  rw [Environment.writeText_of_find hfind] at hwrite
  rw [hinsert, ← Except.ok.inj hwrite]
  rfl

theorem insert_of_sameText (h : env.SameText p q) (positions : List Position) (property : Text) :
    (∃ env', insert ⟨some p, positions⟩ env property = (.ok true, env') ∧
      insert ⟨some q, positions⟩ env property = (.ok true, env')) ∨
    (∃ e, insert ⟨some p, positions⟩ env property = (.error e, env)) ∧
      ∃ e, insert ⟨some q, positions⟩ env property = (.error e, env) := by
  have hfits (t : Text) : Fits ⟨some q, positions⟩ env q t ↔ Fits ⟨some p, positions⟩ env p t :=
    ⟨fun hq => ⟨rfl, (h.holds_iff t).2 hq.holds, hq.isIn⟩,
      fun hp => ⟨rfl, (h.holds_iff t).1 hp.holds, hp.isIn⟩⟩
  by_cases hp : ∃ text, Fits ⟨some p, positions⟩ env p text
  · obtain ⟨text, hp⟩ := hp
    obtain ⟨l, hfind⟩ := Environment.readBytes_eq_ok.1 hp.holds
    exact Or.inl ⟨_, insert_of_fits hp hfind property,
      insert_of_fits ((hfits text).2 hp) ((h l text).1 hfind) property⟩
  · have hq : ¬ ∃ text, Fits ⟨some q, positions⟩ env q text := by simpa only [hfits] using hp
    exact Or.inr ⟨exists_insert_of_not_fits hp property, exists_insert_of_not_fits hq property⟩

end Target

namespace CommandLine

/-- The two outcomes have the same exit code and leave everything the same. -/
structure Outcome.Alike (o o' : Outcome) : Prop where
  code_eq : o.code = o'.code
  environment_eq : o.environment = o'.environment

namespace Outcome.Alike

theorem refl (o : Outcome) : o.Alike o := ⟨rfl, rfl⟩

theorem symm {o o' : Outcome} (h : o.Alike o') : o'.Alike o :=
  ⟨h.code_eq.symm, h.environment_eq.symm⟩

end Outcome.Alike

namespace Program

open Terminal (Key)

/-- Wherever one of the two paths stands on a command line, the other one does the same there. -/
structure Interchangeable (env : Environment) (keys : List Key) (p q : Path) : Prop where
  root {args args' : List Bytes} {settings : Option Path} {output : ScanOutput}
    (h : read args = .ok ⟨settings, .scan p output⟩)
    (h' : read args' = .ok ⟨settings, .scan q output⟩) :
    (run env keys args).Alike (run env keys args')
  file {args args' : List Bytes} {settings : Option Path} {property : Text}
    {positions : List Position} (h : read args = .ok ⟨settings, .insert property p positions⟩)
    (h' : read args' = .ok ⟨settings, .insert property q positions⟩) :
    (run env keys args).Alike (run env keys args')
  settings {args args' : List Bytes} {command : Command} (h : read args = .ok ⟨some p, command⟩)
    (h' : read args' = .ok ⟨some q, command⟩) : (run env keys args).Alike (run env keys args')

variable {keys : List Key} {args args' : List Bytes} {settings : Settings} {named : Option Path}

theorem runScan_of_absolute (h : env.absolute p = .ok q) (settings : Settings)
    (output : ScanOutput) : runScan env settings p output = runScan env settings q output := by
  have hselect : settings.session.select env p = settings.session.select env q := by
    rw [Session.select_normal (Path.normal_of_absolute h)]
    unfold Session.select
    rw [h]
  unfold runScan
  rw [hselect]

theorem runInsert_of_sameText (h : env.SameText p q) (property : Text)
    (positions : List Position) :
    (runInsert env property p positions).Alike (runInsert env property q positions) := by
  unfold runInsert
  by_cases hname : Property.isName property = true
  · rw [if_pos hname, if_pos hname]
    obtain ⟨env', hp, hq⟩ | ⟨⟨e, hp⟩, e', hq⟩ := Target.insert_of_sameText h positions property
    · rw [hp, hq]
      exact .refl _
    · rw [hp, hq]
      exact ⟨rfl, rfl⟩
  · rw [if_neg hname, if_neg hname]
    exact .refl _

theorem invoke_alike {i i' : Invocation}
    (hload : ∀ settings, Settings.load env i.settings = .ok settings ↔
      Settings.load env i'.settings = .ok settings)
    (hrun : ∀ settings, (runCommand env settings keys i.command).Alike
      (runCommand env settings keys i'.command)) :
    (invoke env keys i).Alike (invoke env keys i') := by
  cases hi : Settings.load env i.settings with
  | ok settings =>
    rw [invoke_of_load hi, invoke_of_load ((hload settings).1 hi)]
    exact hrun settings
  | error e =>
    cases hi' : Settings.load env i'.settings with
    | ok settings => cases hi.symm.trans ((hload settings).2 hi')
    | error e' =>
      rw [invoke_of_error hi, invoke_of_error hi']
      exact ⟨rfl, rfl⟩

theorem run_scan_of_absolute (h : env.absolute p = .ok q) {output : ScanOutput}
    (hp : read args = .ok ⟨named, .scan p output⟩) (hq : read args' = .ok ⟨named, .scan q output⟩) :
    run env keys args = run env keys args' := by
  rw [run_of_read hp, run_of_read hq, invoke, invoke]
  simp only [runCommand, runScan_of_absolute h]

theorem interchangeable_of_sameText (habsolute : env.absolute p = .ok q) (h : env.SameText p q) :
    Interchangeable env keys p q := by
  refine ⟨fun hp hq => ?_, fun hp hq => ?_, fun hp hq => ?_⟩
  · rw [run_scan_of_absolute habsolute hp hq]
    exact .refl _
  · rw [run_of_read hp, run_of_read hq]
    exact invoke_alike (fun _ => Iff.rfl) fun settings => runInsert_of_sameText h _ _
  · rw [run_of_read hp, run_of_read hq]
    refine invoke_alike (fun settings => ?_) fun settings => .refl _
    simp only [Settings.load_named, Settings.read_eq_ok, h.holds_iff]

def insertArguments (file : Path) : List Bytes :=
  [word "insert", word "--x", word "--file=" ++ file, word "--at=1:1"]

theorem read_insertArguments (h : p ≠ []) :
    read (insertArguments p) = .ok ⟨none, .insert ['-', '-', 'x'] p [⟨1, 1⟩]⟩ := by
  cases p with
  | nil => exact absurd rfl h
  | cons b p => rfl

theorem read_insertArguments_nil : read (insertArguments []) = .error .misuse := by rfl

theorem inserted_ne (text : Text) :
    Target.inserted ⟨none, [⟨1, 1⟩]⟩ text ['-', '-', 'x'] ≠ text := by
  have hstart : Position.between? [] text = some ⟨1, 1⟩ := if_neg fun h => nomatch h.1
  have hcopies : [(⟨1, 1⟩ : Position)].countP (Position.between? [] text = some ·) ≠ 0 := by
    simp [hstart]
  have hlt : text.length < (Target.inserted ⟨none, [⟨1, 1⟩]⟩ text ['-', '-', 'x']).length :=
    Text.length_lt_withCopies hcopies (by simp [Property.reference])
  exact fun heq => Nat.lt_irrefl _ (heq ▸ hlt)

theorem run_insertArguments (hnil : p ≠ []) (hload : Settings.load env none = .ok settings) :
    run env keys (insertArguments p) = runInsert env ['-', '-', 'x'] p [⟨1, 1⟩] := by
  rw [run_of_read (read_insertArguments hnil), invoke_of_load hload]
  rfl

theorem run_insertArguments_text (keys : List Key) {l : Location} {text : Text}
    (hload : Settings.load env none = .ok settings)
    (hfind : env.find p = .ok (l, .file (Utf8.encode text))) :
    let inserted := Target.inserted ⟨none, [⟨1, 1⟩]⟩ text ['-', '-', 'x']
    (run env keys (insertArguments p)).code = 0 ∧
    (run env keys (insertArguments p)).environment =
      { env with tree := env.tree.set l (.file (Utf8.encode inserted)) } := by
  intro inserted
  have hin : ∀ position ∈ [(⟨1, 1⟩ : Position)], position.IsIn text :=
    List.forall_mem_singleton.2 (Position.isIn_start text)
  have hfits : Target.Fits ⟨some p, [⟨1, 1⟩]⟩ env p text :=
    ⟨rfl, Environment.readBytes_eq_ok.2 ⟨l, hfind⟩, hin⟩
  have hname : Property.isName ['-', '-', 'x'] = true := by decide
  rw [run_insertArguments (Environment.leads_of_find hfind).1 hload, runInsert, if_pos hname,
    Target.insert_of_fits hfits hfind]
  exact ⟨rfl, rfl⟩

theorem exists_text_of_run_insertArguments (hload : Settings.load env none = .ok settings)
    (h : (run env keys (insertArguments p)).code = 0) :
    ∃ l text, env.find p = .ok (l, .file (Utf8.encode text)) := by
  by_cases hnil : p = []
  · rw [hnil, run, read_insertArguments_nil] at h
    cases h
  · rw [run_insertArguments hnil hload] at h
    obtain ⟨-, text, hholds, -⟩ := runInsert_code_eq_zero.1 h
    obtain ⟨l, hfind⟩ := Environment.readBytes_eq_ok.1 hholds
    exact ⟨l, text, hfind⟩

theorem find_eq_of_alike {l : Location} {text : Text}
    (hload : Settings.load env none = .ok settings)
    (h : (run env keys (insertArguments p)).Alike (run env keys (insertArguments q)))
    (hp : env.find p = .ok (l, .file (Utf8.encode text))) :
    env.find q = .ok (l, .file (Utf8.encode text)) := by
  obtain ⟨hcode, henvironment⟩ := run_insertArguments_text keys hload hp
  obtain ⟨l', text', hq⟩ :=
    exists_text_of_run_insertArguments hload (h.code_eq.symm.trans hcode)
  obtain ⟨-, henvironment'⟩ := run_insertArguments_text keys hload hq
  have htree := congrArg Environment.tree
    (henvironment.symm.trans (h.environment_eq.trans henvironment'))
  have hfile := Environment.node?_of_find hp
  have hfile' := Environment.node?_of_find hq
  have hnode := congrArg (FileTree.node? · l') htree
  simp only [FileTree.node?_set (FileTree.ne_nil_of_file hfile),
    FileTree.node?_set (FileTree.ne_nil_of_file hfile'), if_true] at hnode
  -- If there were two files, the first insertion would have left the second one as it was.
  by_cases hl : l' = l
  · subst hl
    rw [hq, Option.some.inj (hfile'.symm.trans hfile)]
  · rw [if_neg hl, hfile'] at hnode
    have htext := congrArg Utf8.decode? (Node.file.inj (Option.some.inj hnode))
    rw [Utf8.decode?_encode, Utf8.decode?_encode] at htext
    exact absurd (Option.some.inj htext).symm (inserted_ne text')

theorem sameText_of_interchangeable (hload : Settings.load env none = .ok settings)
    (h : Interchangeable env keys p q) (hp : p ≠ []) (hq : q ≠ []) : env.SameText p q := by
  have halike := h.file (read_insertArguments hp) (read_insertArguments hq)
  exact fun l t => ⟨find_eq_of_alike hload halike, find_eq_of_alike hload halike.symm⟩

/-- A path and its absolute form. As the root of a scan they do the same, output and notices
included. As the file of an insertion or of the settings they do the same if they lead to the same
text, and only then as long as there is nothing wrong with the settings that are in force anyway.
That is so for every path that does not begin with the home folder or end like the path of a folder,
and that goes up from real folders only. -/
theorem absolute_interchangeable (env : Environment) (keys : List Key) {p q : Path}
    (habsolute : env.absolute p = .ok q) :
    (∀ args args' named output, read args = .ok ⟨named, .scan p output⟩ →
      read args' = .ok ⟨named, .scan q output⟩ → run env keys args = run env keys args') ∧
    (env.SameText p q → Interchangeable env keys p q) ∧
    (∀ settings, p ≠ [] → Settings.load env none = .ok settings → Interchangeable env keys p q →
      env.SameText p q) ∧
    (env.Straight p → q.length ≤ FileTree.maxPathLength → env.SameText p q) := by
  have hq : q ≠ [] := by
    obtain ⟨names, -, rfl⟩ := Path.normal_of_absolute habsolute
    exact Path.ofSteps_ne_nil names
  refine ⟨fun args args' named output => run_scan_of_absolute habsolute,
    interchangeable_of_sameText habsolute,
    fun settings hp hload h => sameText_of_interchangeable hload h hp hq,
    fun hstraight hlength l t => ?_⟩
  rw [hstraight.find_eq habsolute hlength]

theorem absolute_interchangeable_folder_beside :
    let a : Name := (Name.ofBytes? [0x61]).get rfl
    let e : Name := (Name.ofBytes? [0x65]).get rfl
    let env : Environment :=
      { tree := { nodes := [([e], .folder), ([a], .file [0x78])] }, current := some [],
        home := some [0x2f, 0x65], configHome := none }
    let p : Path := word "./e/../a"
    let q : Path := word "/a"
    env.absolute p = .ok q ∧ env.Straight p ∧ env.SameText p q ∧ Interchangeable env [] p q ∧
    run env [] [word "scan", p, word "--json"] = run env [] [word "scan", q, word "--json"] ∧
    (run env [] (insertArguments p)).code = (run env [] (insertArguments q)).code := by
  intro a e env p q
  have habsolute : env.absolute p = .ok q := by decide +kernel
  have hsteps : FileTree.lookupSteps p = [Path.dot, e.bytes, Path.dotDot, a.bytes] := by
    decide +kernel
  have hroot {start : Location} (h : env.start? p = some start) : start = [] :=
    (Option.some.inj h).symm
  have hstraight : env.Straight p := by
    refine ⟨by decide +kernel, by decide +kernel, by decide +kernel, by decide +kernel, ?_, ?_, ?_⟩
    · rw [hsteps]
      unfold FileTree.EndsByName
      decide +kernel
    · intro start hstart
      rw [hroot hstart]
      exact FileTree.stands_nil env.tree
    · intro start hstart
      rw [hroot hstart, hsteps]
      exact .dot (.folder (by decide +kernel) (.dotDot (.down (by decide +kernel))))
  have hload : Settings.load env none = .ok {} := by rfl
  obtain ⟨hscan, halike, hsame, hspelled⟩ := absolute_interchangeable env [] habsolute
  have hinterchangeable := halike (hspelled hstraight (by decide +kernel))
  refine ⟨habsolute, hstraight, hsame {} (by decide +kernel) hload hinterchangeable,
    hinterchangeable, ?_, ?_⟩
  · exact hscan [word "scan", p, word "--json"] [word "scan", q, word "--json"] none .json
      (by rfl) (by rfl)
  · exact (hinterchangeable.file (read_insertArguments (by decide +kernel))
      (read_insertArguments (by decide +kernel))).code_eq

/-- A file in the home folder is not found where the command line names it by that folder. -/
theorem home_path_not_interchangeable :
    ¬ ∀ (env : Environment) (keys : List Key) (home p q : Path), env.home = some home →
      home.isAbsolute = true → env.absolute p = .ok q → Interchangeable env keys p q := by
  intro h
  let a : Name := (Name.ofBytes? [0x61]).get rfl
  let e : Name := (Name.ofBytes? [0x65]).get rfl
  let env : Environment :=
    { tree := { nodes := [([e], .folder), ([e, a], .file [0x78])] }, current := some [],
      home := some [0x2f, 0x65], configHome := none }
  have hload : Settings.load env none = .ok {} := by rfl
  have hinterchangeable := h env [] [0x2f, 0x65] (word "~/a") (word "/e/a") rfl (by decide +kernel)
    (by decide +kernel)
  have hsame := sameText_of_interchangeable hload hinterchangeable (by decide +kernel)
    (by decide +kernel)
  have hfind : env.find (word "/e/a") = .ok ([e, a], .file (Utf8.encode ['x'])) := by
    decide +kernel
  have hmissing : env.find (word "~/a") ≠ .ok ([e, a], .file (Utf8.encode ['x'])) := by
    decide +kernel
  exact hmissing ((hsame _ _).2 hfind)

end Program

end CommandLine

end StyleVars
