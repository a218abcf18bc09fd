import StyleVars.Proofs.Scan.Discovered

namespace StyleVars

/-- The same options, but with nothing left out. -/
def ScanOptions.plain (options : ScanOptions) : ScanOptions :=
  { options with skipHidden := false, exclude := [] }

theorem ScanOptions.prunes_plain (options : ScanOptions) (name : Name) :
    options.plain.prunes name = false := rfl

namespace Scan

variable {env : Environment} {options : ScanOptions} {root : Path} {all : List Path}

theorem sublist_flatten {found all : List (List Path)} (h : List.Forall₂ List.Sublist found all) :
    found.flatten.Sublist all.flatten := by
  induction h with
  | nil => exact .slnil
  | cons hpart hparts ih => exact hpart.append ih

theorem exists_visitEntry {descend descend' : Path → Except Error (List Path)}
    {above : List Ancestor} {folder : Path} {entry : Name × Node}
    (hdescend : ∀ child all, descend child = .ok all →
      ∃ found, descend' child = .ok found ∧ found.Sublist all)
    (h : visitEntry env options.plain descend above folder entry = .ok all) :
    ∃ found, visitEntry env options descend' above folder entry = .ok found ∧
      found.Sublist all := by
  obtain ⟨name, stands⟩ := entry
  obtain ⟨node, hnode, h⟩ := Attempt.bind_eq_ok.1 h
  rw [if_neg (by simp [ScanOptions.prunes_plain])] at h
  -- The entry is followed before its name is looked at, so there is a node in either case.
  by_cases hprunes : options.prunes name = true
  · refine ⟨[], Attempt.bind_eq_ok.2 ⟨node, hnode, ?_⟩, List.nil_sublist all⟩
    simp only [hprunes, if_true]
    rfl
  · cases node with
    | folder =>
      obtain ⟨found, hfound, hsublist⟩ := hdescend _ _ h
      refine ⟨found, Attempt.bind_eq_ok.2 ⟨_, hnode, ?_⟩, hsublist⟩
      simpa only [if_neg hprunes] using hfound
    | file content =>
      refine ⟨all, Attempt.bind_eq_ok.2 ⟨_, hnode, ?_⟩, .refl all⟩
      -- Both searches ask for the same endings.
      simp only [if_neg hprunes]
      exact h
    | link target =>
      refine ⟨all, Attempt.bind_eq_ok.2 ⟨_, hnode, ?_⟩, .refl all⟩
      simpa only [if_neg hprunes] using h

theorem exists_searchFolder {room : Nat} {above : List Ancestor} {folder : Path}
    (h : searchFolder env options.plain room above folder = .ok all) :
    ∃ found, searchFolder env options room above folder = .ok found ∧ found.Sublist all := by
  induction room generalizing above folder all with
  | zero => cases h
  | succ room ih =>
    obtain ⟨⟨l, entries⟩, hread, h⟩ := Attempt.bind_eq_ok.1 h
    obtain ⟨parts, hparts, h⟩ := Attempt.bind_eq_ok.1 h
    cases h
    obtain ⟨parts', hparts', hsublist⟩ := Attempt.exists_mapM_eq_ok hparts fun entry part hpart =>
      exists_visitEntry (fun child all hall => ih hall) hpart
    refine ⟨parts'.flatten, ?_, sublist_flatten hsublist⟩
    exact Attempt.bind_eq_ok.2 ⟨_, hread, Attempt.bind_eq_ok.2 ⟨_, hparts', rfl⟩⟩

/-- A search that leaves entries out finds what is left of a search of everything, in the same
order, when the paths with a name to leave out are taken away. It succeeds where that search does.
-/
theorem discover_filters (h : discover env options.plain root = .ok all) :
    ∃ found, discover env options root = .ok found ∧ found.Nodup ∧ found.Sublist all ∧
      ∀ p, p ∈ found ↔ p ∈ all ∧ ∃ names, p = root.below names ∧ ∀ n ∈ names, options.Keeps n := by
  obtain ⟨⟨l, node⟩, hnode, hall⟩ := Attempt.bind_eq_ok.1 h
  have hfind : env.find root = .ok (l, node) := Attempt.mapError_eq_ok.1 hnode
  obtain ⟨⟨hroot, -⟩, -⟩ := Environment.walkLinks_of_lookup hfind
  cases node with
  | file content => cases hall
  | link target => cases hall
  | folder =>
    obtain ⟨found, hfound, hsublist⟩ := exists_searchFolder hall
    refine ⟨found, Attempt.bind_eq_ok.2 ⟨_, hnode, hfound⟩,
      nodup_searchFolder (v := ⟨[], root⟩) hroot hfound, hsublist, fun p => ?_⟩
    have hmem := (mem_searchFolder (v := ⟨[], root⟩) hfound (p := p)).trans
      (exists_meets_iff fun v hv e => not_fails_of_searchFolder (v := ⟨[], root⟩) hfound hv)
    have hmemAll := (mem_searchFolder (v := ⟨[], root⟩) hall (p := p)).trans
      (exists_meets_iff fun v hv e => not_fails_of_searchFolder (v := ⟨[], root⟩) hall hv)
    constructor
    · intro hp
      obtain ⟨names, name, hpath, hkeeps, -⟩ := hmem.1 hp
      exact ⟨hsublist.subset hp, names ++ [name], hpath, hkeeps⟩
    · rintro ⟨hp, kept, hkept, hkeeps⟩
      obtain ⟨names, name, hpath, -, hfile⟩ := hmemAll.1 hp
      -- The path tells the names below the root, so the names that are kept are those of the file.
      obtain rfl := Path.below_injective hroot (hkept.symm.trans hpath)
      exact hmem.2 ⟨names, name, hpath, hkeeps, hfile⟩

theorem discover_filters_excluded_folder :
    let w : Name := (Name.ofBytes? [0x77]).get rfl
    let h : Name := (Name.ofBytes? [0x2e, 0x68]).get rfl
    let l : Name := (Name.ofBytes? [0x6c]).get rfl
    let n : Name := (Name.ofBytes? [0x6e]).get rfl
    let a : Name := (Name.ofBytes? [0x61, 0x2e, 0x63, 0x73, 0x73]).get rfl
    let env : Environment :=
      { tree := { nodes := [([w], .folder), ([w, h], .folder), ([w, h, a], .file []),
          ([w, n], .folder), ([w, n, a], .file []), ([w, l], .link [0x6e])] },
        current := some [], home := none, configHome := none }
    let options : ScanOptions := { followLinks := true, skipHidden := true, exclude := [['n']] }
    let root : Path := [0x2f, 0x77]
    ∃ all found, discover env options.plain root = .ok all ∧ discover env options root = .ok found ∧
      root.below [l, a] ∈ found ∧
      (root.below [n, a] ∈ all ∧ root.below [n, a] ∉ found) ∧
      (root.below [h, a] ∈ all ∧ root.below [h, a] ∉ found) := by
  intro w h l n a env options root
  have hall : discover env options.plain root =
      .ok [root.below [h, a], root.below [n, a], root.below [l, a]] := by decide +kernel
  obtain ⟨found, hfound, -, -, hmem⟩ := discover_filters hall
  have hl : options.Keeps l := ⟨by decide +kernel, fun _ => by decide +kernel⟩
  have ha : options.Keeps a := ⟨by decide +kernel, fun _ => by decide +kernel⟩
  have hroot : root ≠ [] := by decide
  refine ⟨_, found, hall, hfound, (hmem _).2 ⟨by simp, [l, a], rfl, by simp [hl, ha]⟩,
    ⟨by simp, fun hn => ?_⟩, ⟨by simp, fun hh => ?_⟩⟩
  · obtain ⟨-, names, hnames, hkeeps⟩ := (hmem _).1 hn
    obtain rfl := Path.below_injective hroot hnames
    exact (hkeeps n (by simp)).1 (by decide +kernel)
  · obtain ⟨-, names, hnames, hkeeps⟩ := (hmem _).1 hh
    obtain rfl := Path.below_injective hroot hnames
    exact (hkeeps h (by simp)).2 rfl (by decide +kernel)

end Scan

end StyleVars
