import Mathlib.Data.List.Induction
import StyleVars.Proofs.Scan.Visit

namespace StyleVars

def ScanOptions.Keeps (options : ScanOptions) (name : Name) : Prop :=
  Utf8.decodeLossy name.bytes ∉ options.exclude ∧
    (options.skipHidden = true → name.bytes.head? ≠ some '.'.toUInt8)

theorem ScanOptions.prunes_eq_false {options : ScanOptions} {name : Name} :
    options.prunes name = false ↔ options.Keeps name := by
  simp only [prunes, isExcluded, Path.isHiddenName, Keeps, Bool.or_eq_false_iff, List.any_eq_false,
    Bool.and_eq_false_iff, beq_iff_eq, beq_eq_false_iff_ne]
  constructor
  · rintro ⟨hexclude, hhidden⟩
    refine ⟨fun hmem => hexclude _ hmem rfl, fun hskip => ?_⟩
    obtain h | h := hhidden
    · simp [hskip] at h
    · exact h
  · rintro ⟨hexclude, hhidden⟩
    refine ⟨fun x hx hname => hexclude (hname ▸ hx), ?_⟩
    cases hskip : options.skipHidden with
    | true => exact Or.inr (hhidden hskip)
    | false => exact Or.inl rfl

theorem ScanOptions.accepts_iff {options : ScanOptions} {name : Name} :
    options.accepts name = true ↔
      ∃ ending ∈ options.extensions, ending <:+ Utf8.decodeLossy name.bytes := by
  simp [accepts, isStylesheet]

namespace Scan

variable {env : Environment} {options : ScanOptions} {root : Path}

/-- All names are kept, and each of them leads on to a folder. A link to a folder is one only when
links are followed. -/
def OpenFolder (env : Environment) (options : ScanOptions) (root : Path) (names : List Name) :
    Prop :=
  (∀ name ∈ names, options.Keeps name) ∧
    ∀ before, before <+: names → before ≠ [] →
      ∃ l, env.Leads options.followLinks (root.below before) l .folder

theorem openFolder_nil : OpenFolder env options root [] := by
  refine ⟨by simp, fun before hbefore hne => absurd (List.prefix_nil.1 hbefore) hne⟩

theorem openFolder_concat {names : List Name} {name : Name} :
    OpenFolder env options root (names ++ [name]) ↔
      OpenFolder env options root names ∧ options.Keeps name ∧
        ∃ l, env.Leads options.followLinks (root.below (names ++ [name])) l .folder := by
  constructor
  · rintro ⟨hkeeps, hfolders⟩
    refine ⟨⟨fun n hn => hkeeps n (by simp [hn]), fun before hbefore => ?_⟩, hkeeps name (by simp),
      hfolders _ List.prefix_rfl (by simp)⟩
    exact hfolders before (hbefore.trans (List.prefix_append _ _))
  · rintro ⟨⟨hkeeps, hfolders⟩, hname, hfolder⟩
    refine ⟨fun n hn => ?_, fun before hbefore hne => ?_⟩
    · obtain hn | hn := List.mem_append.1 hn
      · exact hkeeps n hn
      · exact List.mem_singleton.1 hn ▸ hname
    · obtain rfl | hbefore := List.prefix_concat_iff.1 hbefore
      · simpa using hfolder
      · exact hfolders before hbefore hne

theorem leads_of_followEntry {above : List Ancestor} {folder : Path} {l : Location} {name : Name}
    {stands node : Node} (hfolder : env.Leads true folder l .folder)
    (hstands : env.tree.node? (l ++ [name]) = some stands)
    (h : followEntry env options above (folder.join name.bytes) stands = .ok node) :
    ∃ l', env.Leads options.followLinks (folder.join name.bytes) l' node := by
  have hentry : env.Leads false (folder.join name.bytes) (l ++ [name]) stands :=
    (Environment.Leads.stands_iff_of_folder hfolder).2 ⟨rfl, hstands⟩
  obtain ⟨rfl, hnot⟩ | ⟨hfollow, -, l', hfind, -⟩ := followEntry_eq_ok h
  · cases hfollow : options.followLinks with
    | false => exact ⟨_, hentry⟩
    | true => exact ⟨_, hentry.follow (hnot hfollow)⟩
  · rw [hfollow]
    exact ⟨l', Environment.leads_of_find hfind⟩

namespace Visit

variable {v : Visit} {l : Location} {name : Name} {node : Node}

theorem Meets.leads (h : v.Meets env options l name node) :
    options.Keeps name ∧
      ∃ l', env.Leads options.followLinks (v.folder.join name.bytes) l' node := by
  obtain ⟨entries, stands, hread, hmem, hnode, hprunes⟩ := h
  obtain ⟨hfind, rfl⟩ := Environment.readFolder_eq_ok.1 hread
  exact ⟨ScanOptions.prunes_eq_false.1 hprunes,
    leads_of_followEntry (Environment.leads_of_find hfind) (FileTree.mem_entries.1 hmem) hnode⟩

theorem meets_of_leads (hv : ∀ e, ¬ v.Fails env options e) (hkeeps : options.Keeps name)
    (h : env.Leads options.followLinks (v.folder.join name.bytes) l node) :
    ∃ l, v.Meets env options l name node := by
  cases hread : env.readFolder v.folder with
  | error cause => exact absurd (Or.inl ⟨cause, hread, rfl⟩) (hv _)
  | ok r =>
    obtain ⟨m, entries⟩ := r
    obtain ⟨hfind, rfl⟩ := Environment.readFolder_eq_ok.1 hread
    have hfolder := Environment.leads_of_find hfind
    obtain ⟨stands, hstands⟩ := ((Environment.Leads.join_iff_of_folder hfolder).1 h).exists_node
    cases hnode : followEntry env options (v.within m) (v.folder.join name.bytes) stands with
    | error e =>
      have hmem := FileTree.mem_entries.2 hstands
      exact absurd (Or.inr ⟨m, _, name, stands, hread, hmem, hnode⟩) (hv e)
    | ok node' =>
      obtain ⟨l', h'⟩ := leads_of_followEntry hfolder hstands hnode
      -- No path leads to two places, so the entry counts as this node.
      obtain ⟨-, rfl⟩ := h.unique h'
      exact ⟨m, _, stands, hread, FileTree.mem_entries.2 hstands, hnode,
        ScanOptions.prunes_eq_false.2 hkeeps⟩

theorem Reaches.openFolder (h : Visit.Reaches env options ⟨[], root⟩ v) :
    ∃ names, v.folder = root.below names ∧ OpenFolder env options root names := by
  induction h with
  | refl => exact ⟨[], rfl, openFolder_nil⟩
  | tail hv henters ih =>
    obtain ⟨names, hnames, hopen⟩ := ih
    cases henters with
    | @entry l name hmeets =>
      obtain ⟨hkeeps, hfolder⟩ := hmeets.leads
      refine ⟨names ++ [name], by rw [Path.below_concat, hnames], ?_⟩
      rw [openFolder_concat, Path.below_concat, ← hnames]
      exact ⟨hopen, hkeeps, hfolder⟩

theorem exists_reaches
    (hok : ∀ v, Visit.Reaches env options ⟨[], root⟩ v → ∀ e, ¬ v.Fails env options e)
    {names : List Name} (h : OpenFolder env options root names) :
    ∃ above, Visit.Reaches env options ⟨[], root⟩ ⟨above, root.below names⟩ := by
  induction names using List.reverseRecOn with
  | nil => exact ⟨[], .refl⟩
  | append_singleton names name ih =>
    rw [openFolder_concat, Path.below_concat] at h
    obtain ⟨hopen, hkeeps, l, hfolder⟩ := h
    obtain ⟨above, hv⟩ := ih hopen
    obtain ⟨m, hmeets⟩ := meets_of_leads (hok _ hv) hkeeps hfolder
    rw [Path.below_concat]
    exact ⟨_, hv.tail (.entry hmeets)⟩

end Visit

theorem exists_meets_iff
    (hok : ∀ v, Visit.Reaches env options ⟨[], root⟩ v → ∀ e, ¬ v.Fails env options e) {p : Path} :
    (∃ v l name content, Visit.Reaches env options ⟨[], root⟩ v ∧
      v.Meets env options l name (.file content) ∧ options.accepts name = true ∧
      p = v.folder.join name.bytes) ↔
    ∃ names name, p = root.below (names ++ [name]) ∧ (∀ n ∈ names ++ [name], options.Keeps n) ∧
      (∀ before, before <+: names → before ≠ [] →
        ∃ l, env.Leads options.followLinks (root.below before) l .folder) ∧
      (∃ l content, env.Leads options.followLinks p l (.file content)) ∧
      ∃ ending ∈ options.extensions, ending <:+ Utf8.decodeLossy name.bytes := by
  constructor
  · rintro ⟨v, l, name, content, hv, hmeets, haccepts, rfl⟩
    obtain ⟨names, hnames, hopen⟩ := hv.openFolder
    obtain ⟨hkeeps, l', hfile⟩ := hmeets.leads
    refine ⟨names, name, by rw [Path.below_concat, hnames], fun n hn => ?_, hopen.2,
      ⟨l', content, hfile⟩, ScanOptions.accepts_iff.1 haccepts⟩
    obtain hn | hn := List.mem_append.1 hn
    · exact hopen.1 n hn
    · exact List.mem_singleton.1 hn ▸ hkeeps
  · rintro ⟨names, name, rfl, hkeeps, hfolders, ⟨l, content, hfile⟩, haccepts⟩
    rw [Path.below_concat] at hfile
    have hopen : OpenFolder env options root names :=
      ⟨fun n hn => hkeeps n (by simp [hn]), hfolders⟩
    obtain ⟨above, hv⟩ := Visit.exists_reaches hok hopen
    obtain ⟨m, hmeets⟩ := Visit.meets_of_leads (hok _ hv) (hkeeps name (by simp)) hfile
    exact ⟨_, m, name, content, hv, hmeets, ScanOptions.accepts_iff.2 haccepts,
      Path.below_concat root names name⟩

theorem not_link_of_found {names before : List Name} {name : Name}
    (hbefore : before <+: names ++ [name]) (hne : before ≠ [])
    (hfolders : ∀ before, before <+: names → before ≠ [] →
      ∃ l, env.Leads false (root.below before) l .folder)
    (hfile : ∃ l content, env.Leads false (root.below (names ++ [name])) l (.file content))
    (l : Location) (target : Path) : ¬ env.Leads false (root.below before) l (.link target) := by
  intro hlink
  obtain rfl | hbefore := List.prefix_concat_iff.1 hbefore
  · obtain ⟨l', content, hfile⟩ := hfile
    cases (hlink.unique hfile).2
  · obtain ⟨l', hfolder⟩ := hfolders before hbefore hne
    cases (hlink.unique hfolder).2

/-- What a search finds whenever it succeeds, and when it is sure to succeed. The root is followed
through links in any case, and its own name does not matter. Below it `env.Leads false` takes what
stands at a path for what it is. -/
theorem discover_finds (env : Environment) (options : ScanOptions) (root : Path) :
    (∀ found, discover env options root = .ok found →
      (∃ l, env.find root = .ok (l, .folder)) ∧ found.Nodup ∧
      (∀ p, p ∈ found ↔ ∃ names name, p = root.below (names ++ [name]) ∧
        (∀ n ∈ names ++ [name], options.Keeps n) ∧
        (∀ before, before <+: names → before ≠ [] →
          ∃ l, env.Leads options.followLinks (root.below before) l .folder) ∧
        (∃ l content, env.Leads options.followLinks p l (.file content)) ∧
        ∃ ending ∈ options.extensions, ending <:+ Utf8.decodeLossy name.bytes) ∧
      (options.followLinks = false → ∀ names, root.below names ∈ found →
        ∀ before, before <+: names → before ≠ [] →
          ∀ l target, ¬ env.Leads false (root.below before) l (.link target))) ∧
    (options.followLinks = false → (∃ l, env.find root = .ok (l, .folder)) →
      (∀ names, OpenFolder env options root names →
        ∃ entries, env.readFolder (root.below names) = .ok entries) →
      ∃ found, discover env options root = .ok found) := by
  constructor
  · intro found h
    obtain ⟨⟨l, hfind⟩, room, hsearch⟩ := discover_eq_ok h
    obtain ⟨⟨hroot, -⟩, -⟩ := Environment.walkLinks_of_lookup hfind
    have hmem (p : Path) := (mem_searchFolder (v := ⟨[], root⟩) hsearch (p := p)).trans
      (exists_meets_iff fun v hv e => not_fails_of_searchFolder (v := ⟨[], root⟩) hsearch hv)
    refine ⟨⟨l, hfind⟩, nodup_searchFolder (v := ⟨[], root⟩) hroot hsearch, hmem, ?_⟩
    intro hfollow names hnames before hbefore hne
    obtain ⟨names', name, hp, -, hfolders, hfile, -⟩ := (hmem _).1 hnames
    obtain rfl := Path.below_injective hroot hp
    rw [hfollow] at hfolders hfile
    exact not_link_of_found hbefore hne hfolders hfile
  · intro hfollow hfolder hlist
    refine discover_isOk_iff.2 ⟨hfolder, fun v hv e hfails => ?_⟩
    obtain ⟨names, hnames, hopen⟩ := hv.openFolder
    obtain ⟨r, hr⟩ := hlist names hopen
    rw [← hnames] at hr
    obtain ⟨cause, hcause, -⟩ | ⟨l, entries, name, stands, -, -, he⟩ := hfails
    · cases hr.symm.trans hcause
    · exact absurd (followEntry_eq_error he).1 (by simp [hfollow])

theorem discover_finds_hidden_root :
    let w : Name := (Name.ofBytes? [0x77]).get rfl
    let r : Name := (Name.ofBytes? [0x2e, 0x72]).get rfl
    let a : Name := (Name.ofBytes? [0x61, 0x2e, 0x63, 0x73, 0x73]).get rfl
    let b : Name := (Name.ofBytes? [0x62, 0x2e, 0x63, 0x73, 0x73]).get rfl
    let env : Environment :=
      { tree := { nodes := [([w], .folder), ([r], .link [0x77]), ([w, a], .file []),
          ([w, b], .link [0x61, 0x2e, 0x63, 0x73, 0x73])] },
        current := some [], home := none, configHome := none }
    let options : ScanOptions := { skipHidden := true, exclude := [['.', 'r']] }
    let root : Path := [0x2f, 0x2e, 0x72]
    (∃ found, discover env options root = .ok found ∧ found.Nodup ∧ root.below [a] ∈ found) ∧
    ∀ found, discover env options root = .ok found → root.below [b] ∉ found := by
  intro w r a b env options root
  obtain ⟨hfinds, hsucceeds⟩ := discover_finds env options root
  have hfind : env.find root = .ok ([w], .folder) := by decide +kernel
  have hfolder := Environment.leads_of_find hfind
  have hstands (n : Name) {l : Location} {node : Node} : env.Leads false (root.below [n]) l node ↔
      l = [w, n] ∧ env.tree.node? [w, n] = some node :=
    Environment.Leads.stands_iff_of_folder hfolder
  have hentries : env.tree.entries [w] =
    [(a, .file []), (b, .link [0x61, 0x2e, 0x63, 0x73, 0x73])] := by decide +kernel
  have hlist (names : List Name) (h : OpenFolder env options root names) :
      ∃ entries, env.readFolder (root.below names) = .ok entries := by
    cases names with
    | nil => exact ⟨_, Environment.readFolder_eq_ok.2 ⟨hfind, rfl⟩⟩
    | cons n names =>
      obtain ⟨l, hl⟩ := h.2 [n] ⟨names, rfl⟩ (by simp)
      have hn : (n, .folder) ∈ env.tree.entries [w] := FileTree.mem_entries.2 ((hstands n).1 hl).2
      rw [hentries] at hn
      simp at hn
  obtain ⟨found, hfound⟩ := hsucceeds rfl ⟨_, hfind⟩ hlist
  refine ⟨⟨found, hfound, (hfinds found hfound).2.1, ?_⟩, fun found hfound hb => ?_⟩
  · have hkeeps : options.Keeps a := ⟨by decide +kernel, fun _ => by decide +kernel⟩
    have ha : env.tree.node? [w, a] = some (.file []) := by decide +kernel
    exact ((hfinds found hfound).2.2.1 _).2 ⟨[], a, rfl, by simpa using hkeeps, by simp,
      ⟨[w, a], [], (hstands a).2 ⟨rfl, ha⟩⟩, ['.', 'c', 's', 's'], by simp [options],
      by decide +kernel⟩
  · obtain ⟨names, name, -, -, -, ⟨l, content, hfile⟩, -⟩ := ((hfinds found hfound).2.2.1 _).1 hb
    have hb : env.tree.node? [w, b] = some (.link [0x61, 0x2e, 0x63, 0x73, 0x73]) := by
      decide +kernel
    cases hb.symm.trans ((hstands b).1 hfile).2

end Scan

end StyleVars
