import StyleVars.Proofs.CommandLine.Arguments
import StyleVars.Proofs.CommandLine.ExitCode
import StyleVars.Proofs.Json.RoundTrip
import StyleVars.Proofs.Session.Published

namespace StyleVars

theorem Property.filter_nil (names : List Text) : filter names [] = names :=
  List.filter_eq_self.2 fun _ _ => rfl

/-- Whether a message sums up the lines above it: it counts them, or it says why there are none. -/
inductive View.SumsUp (total : Nat) : List Text → String → Prop where
  | counted {lines : List Text} (h : lines ≠ []) :
    SumsUp total lines s!"Showing {lines.length} of {total} properties"
  | empty (root : Path) : SumsUp total [] s!"No custom properties found in {root.display}"
  | noMatches : SumsUp total [] "No matching properties found"

theorem View.sumsUp_ofSnapshot (snapshot : Snapshot) (term : Text) :
    SumsUp snapshot.properties.size (ofSnapshot (some snapshot) term).properties
      (ofSnapshot (some snapshot) term).message := by
  unfold ofSnapshot
  by_cases hempty : snapshot.properties.isEmpty
  · simp only [hempty, if_true]
    exact .empty snapshot.root
  · simp only [hempty, Bool.false_eq_true, if_false]
    cases snapshot.properties.filter term with
    | nil => exact .noMatches
    | cons name rest => exact .counted (List.cons_ne_nil name rest)

theorem Session.select_eq_ok {env : Environment} {s : Session} {path : Path} {snapshot : Snapshot} :
    (s.select env path).result = .ok snapshot ↔ env.absolute path = .ok snapshot.root ∧
      Scan.scan env s.options snapshot.root = .ok snapshot.properties := by
  constructor
  · intro h
    obtain ⟨found, hroot, hscan, hselect⟩ | ⟨place, e, hselect⟩ := select_cases env s path
    · rw [hselect] at h
      obtain rfl : found = snapshot := Except.ok.inj h
      exact ⟨hroot, hscan⟩
    · rw [hselect] at h
      cases h
  · rintro ⟨hroot, hscan⟩
    simp only [select, scanAndPublish, hroot, hscan]
    rfl

namespace CommandLine.Program

variable {env : Environment} {settings : Settings} {named : Option Path} {root : Path}
  {snapshot : Snapshot}

theorem run_scanArguments {more : List Bytes} {output : ScanOutput}
    (hread : read (scanArguments named root more) = .ok ⟨named, .scan root output⟩)
    (hload : Settings.load env named = .ok settings) (keys : List Terminal.Key) :
    run env keys (scanArguments named root more) = runScan env settings root output := by
  rw [run_of_read hread, invoke_of_load hload]
  rfl

theorem scan_isOk_iff :
    (∃ snapshot, (settings.session.select env root).result = .ok snapshot) ↔
      ∃ path properties, env.absolute root = .ok path ∧
        Scan.scan env settings.scan path = .ok properties := by
  constructor
  · rintro ⟨snapshot, h⟩
    exact ⟨snapshot.root, snapshot.properties, Session.select_eq_ok.1 h⟩
  · rintro ⟨path, properties, h⟩
    exact ⟨⟨path, properties⟩, Session.select_eq_ok.2 h⟩

theorem runScan_fails {e : Error} (h : (settings.session.select env root).result = .error e)
    (output : ScanOutput) :
    (runScan env settings root output).code = 1 ∧
      (runScan env settings root output).output = [] := by
  rw [runScan_of_error h]
  exact ⟨rfl, rfl⟩

theorem output_runScan_lines (h : (settings.session.select env root).result = .ok snapshot)
    (term : Text) :
    (runScan env settings root (.lines term)).output = snapshot.properties.filter term := by
  rw [runScan_lines h]
  exact Session.properties_view { published := some snapshot } term

theorem exists_summary (h : (settings.session.select env root).result = .ok snapshot)
    (term : Text) : ∃ message,
      (runScan env settings root (.lines term)).notices =
        toldOfScan env settings root ++ [.info message] ∧
      View.SumsUp snapshot.properties.size (runScan env settings root (.lines term)).output
        message := by
  rw [runScan_lines h]
  exact ⟨_, rfl, View.sumsUp_ofSnapshot snapshot term⟩

/-- Three ways of printing what is found in a folder. They succeed together, which is when the folder
can be scanned. Then the lines are the list that stands in the JSON, the term leaves those of its
entries that match, and each summary fits the lines above it. -/
theorem scan_outputs_agree (env : Environment) (keys : List Terminal.Key) {named : Option Path}
    {root : Path} {i : Invocation} {settings : Settings} (term : Text)
    (hread : read (scanArguments named root []) = .ok i)
    (hload : Settings.load env named = .ok settings)
    (hroot : ∀ path, env.absolute root = .ok path → (Utf8.decode? path).isSome) :
    let plain := run env keys (scanArguments named root [])
    let filtered := run env keys (scanArguments named root
      [word "--filter=" ++ Utf8.encode term])
    let json := run env keys (scanArguments named root [word "--json"])
    (filtered.code = plain.code ∧ json.code = plain.code) ∧
    (plain.code = 0 ↔ ∃ path properties, env.absolute root = .ok path ∧
      Scan.scan env settings.scan path = .ok properties) ∧
    (plain.code = 0 → ∃ text folder names,
      json.output = [text] ∧
      Json.read text = some (.object [(some Snapshot.rootKey, .string (some folder)),
        (some Snapshot.propertiesKey, .array (names.map fun name => .string (some name)))]) ∧
      plain.output = names ∧ filtered.output = names.filter (Property.matchesTerm term) ∧
      ∀ lines ∈ [plain, filtered], ∃ message,
        lines.notices = toldOfScan env settings root ++ [.info message] ∧
        View.SumsUp names.length lines.output message) ∧
    (plain.code ≠ 0 → plain.output = [] ∧ filtered.output = [] ∧ json.output = []) := by
  -- A root that can be named alone can be named with either switch, so all three runs scan it.
  obtain ⟨hplain, hfiltered, hjson⟩ := (canScan_of_read hread).reads
  rw [run_scanArguments hplain hload, run_scanArguments (hfiltered term) hload,
    run_scanArguments hjson hload]
  intro plain filtered json
  rw [← scan_isOk_iff]
  cases hresult : (settings.session.select env root).result with
  | error e =>
    have hfails := runScan_fails hresult
    have hcode : plain.code = 1 := (hfails _).1
    refine ⟨⟨(hfails _).1.trans hcode.symm, (hfails _).1.trans hcode.symm⟩,
      iff_of_false (by omega) (fun ⟨_, h⟩ => nomatch h), fun h => absurd h (by omega), fun _ => ?_⟩
    exact ⟨(hfails _).2, (hfails _).2, (hfails _).2⟩
  | ok snapshot =>
    obtain ⟨text, htext⟩ := Snapshot.exists_toJson? (hroot _ (Session.select_eq_ok.1 hresult).1)
    obtain ⟨folder, -, hvalue⟩ := Snapshot.read_of_toJson? htext
    have hcode : ∀ t, (runScan env settings root (.lines t)).code = 0 := fun t => by
      rw [runScan_lines hresult]
    have hshown : json =
        { code := 0, output := [text], notices := toldOfScan env settings root,
          environment := env } := runScan_json hresult htext
    refine ⟨⟨(hcode term).trans (hcode []).symm, ?_⟩, iff_of_true (hcode []) ⟨snapshot, rfl⟩,
      fun _ => ?_, fun h => absurd (hcode []) h⟩
    · rw [hshown]
      exact (hcode []).symm
    · refine ⟨text, folder, snapshot.properties.names, by rw [hshown], hvalue, ?_,
        output_runScan_lines hresult term, ?_⟩
      · exact (output_runScan_lines hresult []).trans (Property.filter_nil _)
      · intro lines hlines
        obtain rfl | rfl : lines = plain ∨ lines = filtered := by simpa using hlines
        · exact exists_summary hresult []
        · exact exists_summary hresult term

theorem scan_outputs_agree_two_names :
    let w : Name := (Name.ofBytes? [0x77]).get rfl
    let a : Name := (Name.ofBytes? [0x61, 0x2e, 0x63, 0x73, 0x73]).get rfl
    let content : Bytes := [0x2d, 0x2d, 0x78, 0x2c, 0x2d, 0x2d, 0x79]
    let env : Environment :=
      { tree := { nodes := [([w], .folder), ([w, a], .file content)] }, current := some [],
        home := none, configHome := none }
    let root : Path := [0x2f, 0x77]
    let x : Text := ['-', '-', 'x']
    let y : Text := ['-', '-', 'y']
    let plain := run env [] (scanArguments none root [])
    let filtered := run env [] (scanArguments none root [word "--filter=" ++ Utf8.encode ['X']])
    let json := run env [] (scanArguments none root [word "--json"])
    read (scanArguments none root []) = .ok ⟨none, .scan root (.lines [])⟩ ∧
    Settings.load env none = .ok {} ∧
    (∀ path, env.absolute root = .ok path → (Utf8.decode? path).isSome) ∧
    (filtered.code = 0 ∧ json.code = 0) ∧
    plain.output = [x, y] ∧ filtered.output = [x] ∧
    ∃ text folder, json.output = [text] ∧
      Json.read text = some (.object [(some Snapshot.rootKey, .string (some folder)),
        (some Snapshot.propertiesKey, .array [.string (some x), .string (some y)])]) := by
  intro w a content env root x y plain filtered json
  have hread : read (scanArguments none root []) = .ok ⟨none, .scan root (.lines [])⟩ := by rfl
  have hload : Settings.load env none = .ok {} := by rfl
  have hroot : ∀ path, env.absolute root = .ok path → (Utf8.decode? path).isSome := by
    intro path hpath
    obtain rfl : root = path := Except.ok.inj hpath
    decide +kernel
  obtain ⟨⟨hfiltered, hjson⟩, -, hok, -⟩ := scan_outputs_agree env [] ['X'] hread hload hroot
  have hcode : plain.code = 0 := by decide +kernel
  have hfound : Scan.readProperties env (root ++ [0x2f, 0x61, 0x2e, 0x63, 0x73, 0x73]) =
      .ok [x, y] := by decide +kernel
  have hscan : Scan.scan env {} root = .ok (.ofList [x, y]) :=
    Attempt.bind_eq_ok.2 ⟨_, by rfl,
      Attempt.bind_eq_ok.2 ⟨_, Attempt.mapM_eq_ok.2 (.cons hfound .nil), rfl⟩⟩
  have hselect : ((({} : Settings).session).select env root).result =
      .ok ⟨root, .ofList [x, y]⟩ := Session.select_eq_ok.2 ⟨rfl, hscan⟩
  have hordered : [x, y].Pairwise fun a b => PropertySet.inOrder a b = true := by decide
  have hnames : PropertySet.filter (.ofList [x, y]) [] = [x, y] := by
    rw [PropertySet.filter, Property.filter_nil]
    change dropRepeats ([x, y].mergeSort PropertySet.inOrder) = _
    rw [List.mergeSort_of_pairwise hordered]
    rfl
  have houtput : plain.output = [x, y] := by
    change (run env [] (scanArguments none root [])).output = _
    rw [run_scanArguments hread hload, output_runScan_lines hselect, hnames]
  obtain ⟨text, folder, names, htext, hvalue, hplain, hkept, -⟩ := hok hcode
  obtain rfl : names = [x, y] := hplain.symm.trans houtput
  refine ⟨hread, hload, hroot, ⟨hfiltered.trans hcode, hjson.trans hcode⟩, houtput,
    hkept.trans (by decide +kernel), text, folder, htext, hvalue⟩

end CommandLine.Program

end StyleVars
