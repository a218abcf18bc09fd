import StyleVars.Proofs.Scan.LinkLoop

namespace StyleVars

def Error.blamed? : Error → Option Path
  | .readFolder path _ | .linkLoop path _ => some path
  | _ => none

namespace Path

theorem below_ne_nil {p : Path} (hp : p ≠ []) (names : List Name) : below p names ≠ [] := by
  induction names generalizing p with
  | nil => exact hp
  | cons n names ih => exact ih (join_ne_nil hp n)

theorem below_ne_self {names : List Name} (hne : names ≠ []) (root : Path) :
    below root names ≠ root := by
  intro h
  by_cases hroot : root = []
  · obtain ⟨n, names, rfl⟩ := List.exists_cons_of_ne_nil hne
    subst hroot
    exact below_ne_nil (p := join [] n.bytes) (by simp [join, n.ne_nil]) names h
  · exact hne (below_injective hroot h)

end Path

namespace Scan

variable {env : Environment} {options : ScanOptions} {root : Path}

/-- A link that leads nowhere, or back to a folder that its own path goes through. -/
def BrokenLink (env : Environment) (root : Path) (names : List Name) : Prop :=
  (∃ l target, env.Leads false (root.below names) l (.link target)) ∧
    ((∃ cause, env.find (root.below names) = .error cause) ∨
      ∃ before more l, more ≠ [] ∧ names = before ++ more ∧
        env.find (root.below before) = .ok (l, .folder) ∧
        env.find (root.below names) = .ok (l, .folder))

section Entry

variable {above : List Ancestor} {child target : Path}

theorem followEntry_of_find_error {cause : IoError} (hfollow : options.followLinks = true)
    (h : env.find child = .error cause) :
    followEntry env options above child (.link target) = .error (.readFolder child cause) := by
  simp only [followEntry, hfollow, h]
  rfl

theorem exists_followEntry_error {a : Ancestor} (hfollow : options.followLinks = true)
    (h : env.find child = .ok (a.location, .folder)) (ha : a ∈ above) :
    ∃ e, followEntry env options above child (.link target) = .error e := by
  cases hentry : followEntry env options above child (.link target) with
  | error e => exact ⟨e, rfl⟩
  | ok node =>
    obtain ⟨-, hnot⟩ | ⟨-, -, l, hfind, hnew⟩ := followEntry_eq_ok hentry
    · exact absurd rfl (hnot hfollow target)
    · cases h.symm.trans hfind
      exact absurd rfl (hnew rfl a ha)

end Entry

namespace Visit

variable {v : Visit} {l : Location} {e : Error}

theorem Reaches.exists_mem_within (hroot : root ≠ [])
    (h : Visit.Reaches env options ⟨[], root⟩ v) (hfind : env.find v.folder = .ok (l, .folder))
    {before more : List Name} (hfolder : v.folder = root.below (before ++ more)) :
    ∃ a ∈ v.within l, a.path = root.below before ∧ env.find a.path = .ok (a.location, .folder) := by
  induction h generalizing l more with
  | refl =>
    have hnil : [] = before ++ more := Path.below_injective hroot hfolder
    obtain ⟨rfl, -⟩ := List.append_eq_nil_iff.1 hnil.symm
    exact ⟨_, List.mem_cons_self, rfl, hfind⟩
  | @tail w v hw henters ih =>
    -- Either it is the folder itself, or the search has been in it one folder earlier.
    obtain rfl | hmore := eq_or_ne more []
    · rw [List.append_nil] at hfolder
      exact ⟨_, List.mem_cons_self, hfolder, hfind⟩
    · obtain ⟨more, last, rfl⟩ := (List.eq_nil_or_concat' more).resolve_left hmore
      obtain ⟨names, hnames⟩ := Reaches.exists_below hw
      cases henters with
      | @entry m name hmeets =>
        obtain ⟨entries, stands, hread, -⟩ := hmeets
        rw [hnames, ← Path.below_concat, ← List.append_assoc] at hfolder
        obtain ⟨hbefore, -⟩ := List.append_inj' (Path.below_injective hroot hfolder) rfl
        obtain ⟨a, ha, hpath, hstands⟩ :=
          ih (Environment.readFolder_eq_ok.1 hread).1 (by rw [hnames, hbefore])
        exact ⟨a, List.mem_cons_of_mem _ ha, hpath, hstands⟩

theorem Fails.exists_blamed (hroot : root ≠ []) (hv : Visit.Reaches env options ⟨[], root⟩ v)
    (h : v.Fails env options e) : ∃ names, OpenFolder env options root names ∧
      (e.blamed? = some (root.below names) ∨
        options.followLinks = true ∧ ∃ last, e.blamed? = some (root.below (names ++ [last])) ∧
          BrokenLink env root (names ++ [last])) := by
  obtain ⟨names, hnames, hopen⟩ := hv.openFolder
  refine ⟨names, hopen, ?_⟩
  obtain ⟨cause, -, rfl⟩ | ⟨l, entries, last, stands, hread, hmem, he⟩ := id h
  · exact Or.inl (congrArg some hnames)
  obtain ⟨hfind, rfl⟩ := Environment.readFolder_eq_ok.1 hread
  obtain ⟨hfollow, ⟨target, rfl⟩, hwhy⟩ := followEntry_eq_error he
  have hpath : v.folder.join last.bytes = root.below (names ++ [last]) := by
    rw [Path.below_concat, hnames]
  have hlink : env.Leads false (v.folder.join last.bytes) (l ++ [last]) (.link target) :=
    (Environment.Leads.stands_iff_of_folder (Environment.leads_of_find hfind)).2
      ⟨rfl, FileTree.mem_entries.1 hmem⟩
  rw [hpath] at hwhy hlink
  refine Or.inr ⟨hfollow, last, ?_⟩
  obtain ⟨cause, hcause, rfl⟩ | ⟨l', a, -, -, -, rfl⟩ := hwhy
  · exact ⟨rfl, ⟨_, target, hlink⟩, Or.inl ⟨cause, hcause⟩⟩
  · obtain ⟨before, more, hmore, hancestor, hloop, -, m, hbefore, hafter⟩ := Fails.linkLoop hv h
    rw [hancestor] at hbefore
    exact ⟨rfl, ⟨_, target, hlink⟩,
      Or.inr ⟨before, more, m, hmore, Path.below_injective hroot hloop, hbefore, hafter⟩⟩

theorem exists_fails_of_brokenLink (hroot : root ≠ [])
    (hv : Visit.Reaches env options ⟨[], root⟩ v) (hfollow : options.followLinks = true)
    {names : List Name} {last : Name} (hnames : v.folder = root.below names)
    (h : BrokenLink env root (names ++ [last])) : ∃ e, v.Fails env options e := by
  cases hread : env.readFolder v.folder with
  | error cause => exact ⟨_, Or.inl ⟨cause, hread, rfl⟩⟩
  | ok r =>
    obtain ⟨l, entries⟩ := r
    obtain ⟨hfind, rfl⟩ := Environment.readFolder_eq_ok.1 hread
    obtain ⟨⟨l', target, hlink⟩, hbroken⟩ := h
    rw [Path.below_concat, ← hnames] at hlink hbroken
    obtain ⟨-, hstands⟩ :=
      (Environment.Leads.stands_iff_of_folder (Environment.leads_of_find hfind)).1 hlink
    obtain ⟨e, he⟩ : ∃ e, followEntry env options (v.within l) (v.folder.join last.bytes)
        (.link target) = .error e := by
      obtain ⟨cause, hcause⟩ | ⟨before, more, m, hmore, hsplit, hbefore, hafter⟩ := hbroken
      · exact ⟨_, followEntry_of_find_error hfollow hcause⟩
      · -- The folder that the link leads back to is above the link's own name.
        obtain ⟨more, last', rfl⟩ := (List.eq_nil_or_concat' more).resolve_left hmore
        rw [← List.append_assoc] at hsplit
        obtain ⟨rfl, -⟩ := List.append_inj' hsplit rfl
        obtain ⟨a, ha, hpath, hfind'⟩ := Reaches.exists_mem_within hroot hv hfind hnames
        rw [hpath, hbefore] at hfind'
        obtain ⟨rfl, -⟩ := Prod.mk.inj (Except.ok.inj hfind')
        exact exists_followEntry_error hfollow hafter ha
    exact ⟨e, Or.inr ⟨l, _, last, _, hread, FileTree.mem_entries.2 hstands, he⟩⟩

end Visit

/-- What a search that fails below its root speaks of. Every name on the way there is kept, except
that the path may be that of a link which is to be followed and cannot be. Such a link in a folder
that is searched always makes the search fail, and its name does not matter. -/
theorem failure_spares_pruned (env : Environment) (options : ScanOptions) (root : Path) :
    (∀ e names, names ≠ [] → discover env options root = .error e →
      e.blamed? = some (root.below names) →
      (∀ n ∈ names, options.Keeps n) ∨
        options.followLinks = true ∧ ∃ before last, names = before ++ [last] ∧
          OpenFolder env options root before ∧ ¬ options.Keeps last ∧ BrokenLink env root names) ∧
    (options.followLinks = true → ∀ before last, OpenFolder env options root before →
      BrokenLink env root (before ++ [last]) → ∃ e, discover env options root = .error e) := by
  constructor
  · intro e names hne h hblamed
    obtain ⟨cause, -, rfl⟩ | ⟨l, node, -, -, rfl⟩ | ⟨⟨l, hfind⟩, v, hv, he⟩ := discover_eq_error h
    · exact absurd (Option.some.inj hblamed).symm (Path.below_ne_self hne root)
    · cases hblamed
    obtain ⟨⟨hroot, -⟩, -⟩ := Environment.walkLinks_of_lookup hfind
    obtain ⟨before, hopen, hbefore | ⟨hfollow, last, hlast, hbroken⟩⟩ := he.exists_blamed hroot hv
    · have hpath := Option.some.inj (hbefore.symm.trans hblamed)
      obtain rfl := Path.below_injective hroot hpath
      exact Or.inl hopen.1
    · have hpath := Option.some.inj (hlast.symm.trans hblamed)
      obtain rfl := Path.below_injective hroot hpath
      by_cases hkeeps : options.Keeps last
      · left
        intro n hn
        obtain hn | hn := List.mem_append.1 hn
        · exact hopen.1 n hn
        · exact List.mem_singleton.1 hn ▸ hkeeps
      · exact Or.inr ⟨hfollow, before, last, rfl, hopen, hkeeps, hbroken⟩
  · intro hfollow before last hopen hbroken
    cases h : discover env options root with
    | error e => exact ⟨e, rfl⟩
    | ok found =>
      obtain ⟨⟨l, hfind⟩, hok⟩ := discover_isOk_iff.1 ⟨found, h⟩
      obtain ⟨⟨hroot, -⟩, -⟩ := Environment.walkLinks_of_lookup hfind
      obtain ⟨above, hv⟩ := Visit.exists_reaches hok hopen
      obtain ⟨e, he⟩ := Visit.exists_fails_of_brokenLink hroot hv hfollow rfl hbroken
      exact absurd he (hok _ hv e)

theorem failure_spares_pruned_two_folders :
    let w : Name := (Name.ofBytes? [0x77]).get rfl
    let n : Name := (Name.ofBytes? [0x6e]).get rfl
    let k : Name := (Name.ofBytes? [0x6b]).get rfl
    let d : Name := (Name.ofBytes? [0x64]).get rfl
    let env : Environment :=
      { tree := { nodes := [([w], .folder), ([w, n], .folder), ([w, n, d], .link [0x78]),
          ([w, k], .folder), ([w, k, d], .link [0x78])] },
        current := some [], home := none, configHome := none }
    let options : ScanOptions := { followLinks := true, exclude := [['n']] }
    let root : Path := [0x2f, 0x77]
    let e : Error := .readFolder (root.below [k, d]) (.fault .missing)
    discover env options root = .error e ∧ (∀ name ∈ [k, d], options.Keeps name) ∧
      BrokenLink env root [k, d] ∧ ∃ e, discover env options root = .error e := by
  intro w n k d env options root e
  obtain ⟨hspares, hfails⟩ := failure_spares_pruned env options root
  have hdiscover : discover env options root = .error e := by decide +kernel
  have hk : options.Keeps k := ⟨by decide +kernel, fun h => by simp [options] at h⟩
  have hd : options.Keeps d := ⟨by decide +kernel, fun h => by simp [options] at h⟩
  have hfolder : env.Leads true (root.below [k]) [w, k] .folder :=
    Environment.leads_of_find (by decide +kernel)
  have hlink : env.Leads false (root.below [k, d]) [w, k, d] (.link [0x78]) :=
    Environment.leads_of_lookup (by decide +kernel)
  have hbroken : BrokenLink env root [k, d] :=
    ⟨⟨_, _, hlink⟩, Or.inl ⟨.fault .missing, by decide +kernel⟩⟩
  have hopen : OpenFolder env options root [k] :=
    openFolder_concat.2 ⟨openFolder_nil, hk, _, hfolder⟩
  refine ⟨hdiscover, ?_, hbroken, hfails rfl [k] d hopen hbroken⟩
  obtain hkeeps | ⟨-, before, last, hsplit, -, hlast, -⟩ :=
    hspares e [k, d] (by simp) hdiscover rfl
  · exact hkeeps
  · have hd' : d = last := by simpa using congrArg List.getLast? hsplit
    exact absurd (hd' ▸ hd) hlast

/-- A broken link of a name to leave out. Where links are not followed it does no harm, and where
they are the search fails with it. -/
theorem broken_link_not_spared :
    let w : Name := (Name.ofBytes? [0x77]).get rfl
    let n : Name := (Name.ofBytes? [0x6e]).get rfl
    let env : Environment :=
      { tree := { nodes := [([w], .folder), ([w, n], .link [0x78])] },
        current := some [], home := none, configHome := none }
    let options : ScanOptions := { exclude := [['n']] }
    let root : Path := [0x2f, 0x77]
    discover env options root = .ok [] ∧
    discover env { options with followLinks := true } root =
      .error (.readFolder (root.below [n]) (.fault .missing)) ∧
    ¬ ∀ e names, names ≠ [] → discover env { options with followLinks := true } root = .error e →
      e.blamed? = some (root.below names) → ∀ n ∈ names, options.Keeps n := by
  intro w n env options root
  have hdiscover : discover env { options with followLinks := true } root =
      .error (.readFolder (root.below [n]) (.fault .missing)) := by decide +kernel
  refine ⟨by decide +kernel, hdiscover, fun h => ?_⟩
  have hkeeps : options.Keeps n := h _ [n] (by simp) hdiscover rfl n (by simp)
  exact hkeeps.1 (by decide +kernel)

end Scan

end StyleVars
