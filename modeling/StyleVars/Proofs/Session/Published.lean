import StyleVars.Proofs.Path.Normal
import StyleVars.Proofs.Property.Places
import StyleVars.Proofs.Scan.ReadingOrder
import StyleVars.Proofs.Session.History

namespace StyleVars

open Property (isName reference tokens)

theorem Scan.isName_of_scan {env : Environment} {options : ScanOptions} {root : Path}
    {s : PropertySet} (h : scan env options root = .ok s) {name : Text} (hname : name ∈ s.toList) :
    isName name = true := by
  obtain ⟨files, -, h⟩ := Attempt.bind_eq_ok.1 h
  obtain ⟨found, hfound, h⟩ := Attempt.bind_eq_ok.1 h
  cases h
  obtain ⟨names, hnames, hname⟩ := List.mem_flatten.1 (PropertySet.mem_toList_ofList.1 hname)
  obtain ⟨file, -, hread⟩ := (Attempt.mem_iff_of_mapM_eq_ok hfound).1 hnames
  obtain ⟨t, -, rfl⟩ := readProperties_eq_ok.1 hread
  exact Property.isName_of_mem_tokens hname

structure Snapshot.WellFormed (snapshot : Snapshot) : Prop where
  root_normal : snapshot.root.Normal
  isName_of_mem {name : Text} (h : name ∈ snapshot.properties.toList) : isName name = true

namespace Session

variable {env : Environment} {s : Session}

def WellFormed (s : Session) : Prop := ∀ snapshot ∈ s.published, snapshot.WellFormed

theorem WellFormed.root_normal (hs : s.WellFormed) {root : Path} (h : s.root = some root) :
    root.Normal := by
  obtain ⟨snapshot, hsnapshot, rfl⟩ := Option.map_eq_some_iff.1 h
  exact (hs snapshot hsnapshot).root_normal

theorem Effect.wellFormed {op : Operation} {step : Step Answer} (h : Effect env s op step)
    (hs : s.WellFormed) : step.session.WellFormed := by
  cases h with
  | registered => exact hs
  | published hop hscan hasked hroot =>
    rintro _ ⟨⟩
    refine ⟨?_, Scan.isName_of_scan hscan⟩
    obtain ⟨path, hpath⟩ | hroot := hroot
    · exact Path.normal_of_absolute hpath
    · exact hs.root_normal hroot
  | unchanged hop hanswer hevents => exact hs

theorem wellFormed_after (hs : s.WellFormed) (ops : List (Environment × Operation)) :
    (s.after ops).WellFormed := by
  induction ops generalizing s with
  | nil => exact hs
  | cons x rest ih =>
    obtain ⟨env, op⟩ := x
    exact ih ((perform_effect env s op).wellFormed hs)

theorem wellFormed_after_new (options : ScanOptions) (interface : Interface)
    (ops : List (Environment × Operation)) :
    (({ options, interface } : Session).after ops).WellFormed :=
  wellFormed_after (fun _ h => by cases h) ops

theorem select_normal {root : Path} (h : root.Normal) (env : Environment) (s : Session) :
    s.select env root = s.scanAndPublish env root := by
  have habsolute : env.absolute root = .ok root := h.absolute_eq env.home env.currentPath
  unfold select
  rw [habsolute]

theorem refresh_of_root {root : Path} (h : s.root = some root) (env : Environment) :
    s.refresh env = (s.scanAndPublish env root).some := by
  unfold refresh
  rw [h]

/-- Refreshing is the same as selecting the root that is published, whatever has become of the
files, of the current folder and of the home folder. So a folder that was named by a path of any
kind is scanned again where it was then. -/
theorem refresh_eq_select (options : ScanOptions) (interface : Interface)
    (ops : List (Environment × Operation)) :
    let s := ({ options, interface } : Session).after ops
    (∀ root env, s.root = some root → s.refresh env = (s.select env root).some) ∧
    ∀ path env snapshot, (s.select env path).result = .ok snapshot →
      env.absolute path = .ok snapshot.root ∧
      ∀ later, let s' := (s.select env path).session
        s'.refresh later = (s'.select later snapshot.root).some ∧
        ∀ found, (s'.refresh later).result = .ok (some found) →
          found.root = snapshot.root ∧
          Scan.scan later options snapshot.root = .ok found.properties := by
  intro s
  have hs : s.WellFormed := wellFormed_after_new options interface ops
  have hoptions : s.options = options := after_options _ ops
  refine ⟨fun root env hroot => ?_, fun path env snapshot hresult => ?_⟩
  · rw [refresh_of_root hroot, select_normal (hs.root_normal hroot)]
  · obtain ⟨snapshot', hpath, -, h⟩ | ⟨place, e, h⟩ := select_cases env s path
    · rw [h] at hresult ⊢
      obtain rfl : snapshot' = snapshot := Except.ok.inj hresult
      refine ⟨hpath, fun later => ?_⟩
      have hroot : (s.publish snapshot').session.root = some snapshot'.root := rfl
      intro s'
      rw [refresh_of_root hroot, select_normal (Path.normal_of_absolute hpath)]
      refine ⟨rfl, fun found hfound => ?_⟩
      obtain ⟨properties, hscan, h⟩ | ⟨e, -, h⟩ := scanAndPublish_cases later s' snapshot'.root
      · rw [h] at hfound
        cases hfound
        exact ⟨rfl, hoptions ▸ hscan⟩
      · rw [h] at hfound
        cases hfound
    · rw [h] at hresult
      cases hresult

theorem refresh_eq_select_no_current_folder :
    let w : Name := (Name.ofBytes? [0x77]).get rfl
    let a : Name := (Name.ofBytes? [0x61, 0x2e, 0x63, 0x73, 0x73]).get rfl
    let here : Environment :=
      { tree := { nodes := [([w], .folder), ([w, a], .file [0x2d, 0x2d, 0x78])] },
        current := some [], home := none, configHome := none }
    let later : Environment := { here with current := none, home := some [0x2f, 0x77] }
    let s := Session.after {} [(here, .select [0x2e, 0x2f, 0x77])]
    s.root = some [0x2f, 0x77] ∧ s.refresh later = (s.select later [0x2f, 0x77]).some ∧
    (s.refresh later).result = .ok (some ⟨[0x2f, 0x77], .ofList [['-', '-', 'x']]⟩) := by
  intro w a here later s
  have hroot : s.root = some [0x2f, 0x77] := by decide +kernel
  have h := (refresh_eq_select {} .visible [(here, .select [0x2e, 0x2f, 0x77])]).1 _ later hroot
  exact ⟨hroot, h, by decide +kernel⟩

theorem mem_filter {term name : Text} (h : name ∈ s.filter term) :
    ∃ snapshot ∈ s.published, name ∈ snapshot.properties.toList := by
  unfold filter at h
  split at h
  case h_1 snapshot hsnapshot => exact ⟨snapshot, hsnapshot, List.mem_of_mem_filter h⟩
  case h_2 => cases h

theorem properties_view (s : Session) (term : Text) : (s.view term).properties = s.filter term := by
  unfold view View.ofSnapshot filter
  cases s.published with
  | none => rfl
  | some snapshot =>
    by_cases hempty : snapshot.properties.isEmpty
    · have hnames : snapshot.properties.names = [] := List.isEmpty_iff.1 hempty
      simp [hempty, View.properties, PropertySet.filter, Property.filter, hnames]
    · simp only [hempty, Bool.false_eq_true, if_false]
      cases snapshot.properties.filter term <;> rfl

/-- What holds of the snapshot that is published after any row of operations, and of all that is
listed from it. -/
theorem published_wellFormed (options : ScanOptions) (interface : Interface)
    (ops : List (Environment × Operation)) :
    let s := ({ options, interface } : Session).after ops
    (∀ snapshot, s.published = some snapshot →
      (snapshot.root.isAbsolute = true ∧ Path.dot ∉ snapshot.root.splitOn Path.slash ∧
        Path.dotDot ∉ snapshot.root.splitOn Path.slash) ∧
      snapshot.properties.toList.Pairwise (List.Lex fun a b => a.toNat < b.toNat) ∧
      ∀ name ∈ snapshot.properties.toList, isName name = true) ∧
    ∀ term name, name ∈ s.filter term ∨ name ∈ (s.view term).properties →
      isName name = true ∧ tokens (reference name) = [name] := by
  intro s
  have hs : s.WellFormed := wellFormed_after_new options interface ops
  refine ⟨fun snapshot hsnapshot => ?_, fun term name hname => ?_⟩
  · have hsnapshot := hs snapshot hsnapshot
    have hroot := hsnapshot.root_normal
    exact ⟨⟨hroot.isAbsolute, hroot.dot_notMem, hroot.dotDot_notMem⟩,
      snapshot.properties.ascending_codePoints, fun name => hsnapshot.isName_of_mem⟩
  · rw [properties_view, or_self] at hname
    obtain ⟨snapshot, hsnapshot, hmem⟩ := mem_filter hname
    have hisName := (hs snapshot hsnapshot).isName_of_mem hmem
    exact ⟨hisName, Property.tokens_reference hisName⟩

theorem published_wellFormed_third_hyphen :
    let w : Name := (Name.ofBytes? [0x77]).get rfl
    let a : Name := (Name.ofBytes? [0x61, 0x2e, 0x63, 0x73, 0x73]).get rfl
    let env : Environment :=
      { tree := { nodes := [([w], .folder), ([w, a], .file [0x2d, 0x2d, 0x2d, 0x78])] },
        current := some [], home := none, configHome := none }
    let path : Path := [0x2f, 0x79, 0x2f, 0x2e, 0x2e, 0x2f, 0x77, 0x2f, 0x2e]
    let s := Session.after {} [(env, .select path)]
    let x : Text := ['-', '-', 'x']
    let snapshot : Snapshot := ⟨[0x2f, 0x77], .ofList [x]⟩
    s.published = some snapshot ∧ Path.dotDot ∉ snapshot.root.splitOn Path.slash ∧
    (∀ name ∈ snapshot.properties.toList, isName name = true) ∧
    x ∈ s.filter ['X'] ∧ isName x = true ∧ tokens (reference x) = [x] := by
  intro w a env path s x snapshot
  obtain ⟨hpublished, hlisted⟩ := published_wellFormed {} .visible [(env, .select path)]
  have hsnapshot : s.published = some snapshot := by decide +kernel
  have hx : x ∈ s.filter ['X'] := by decide +kernel
  obtain ⟨⟨-, -, hdotDot⟩, -, hnames⟩ := hpublished snapshot hsnapshot
  exact ⟨hsnapshot, hdotDot, hnames, hx, hlisted ['X'] x (Or.inl hx)⟩

end Session

end StyleVars
