import Mathlib.Data.List.Nodup
import Mathlib.Logic.Relation
import StyleVars.Proofs.Environment.Leads
import StyleVars.Scan.Discovery

namespace StyleVars.Scan

/-- A folder that the search comes to, below the folders that it is in already. -/
structure Visit where
  above : List Ancestor
  folder : Path

namespace Visit

variable (env : Environment) (options : ScanOptions)

def within (v : Visit) (l : Location) : List Ancestor := ⟨v.folder, l⟩ :: v.above

/-- The folder is listed, and an entry of it is not pruned and counts as this node. -/
def Meets (v : Visit) (l : Location) (name : Name) (node : Node) : Prop :=
  ∃ entries stands, env.readFolder v.folder = .ok (l, entries) ∧ (name, stands) ∈ entries ∧
    followEntry env options (v.within l) (v.folder.join name.bytes) stands = .ok node ∧
    options.prunes name = false

/-- The folder cannot be listed, or an entry of it cannot be followed. -/
def Fails (v : Visit) (e : Error) : Prop :=
  (∃ cause, env.readFolder v.folder = .error cause ∧ e = .readFolder v.folder cause) ∨
  ∃ l entries name stands, env.readFolder v.folder = .ok (l, entries) ∧ (name, stands) ∈ entries ∧
    followEntry env options (v.within l) (v.folder.join name.bytes) stands = .error e

inductive Enters : Visit → Visit → Prop where
  | entry {v : Visit} {l : Location} {name : Name} (h : v.Meets env options l name .folder) :
      Enters v ⟨v.within l, v.folder.join name.bytes⟩

/-- The search comes from one folder to another, and on its way into folders in between. -/
abbrev Reaches : Visit → Visit → Prop := Relation.ReflTransGen (Enters env options)

end Visit

variable {env : Environment} {options : ScanOptions}

section Entry

variable {descend : Path → Except Error (List Path)} {above : List Ancestor} {folder p : Path}
  {name : Name} {stands : Node} {found : List Path} {e : Error}

theorem followEntry_eq_ok {child : Path} {node : Node}
    (h : followEntry env options above child stands = .ok node) :
    (node = stands ∧ (options.followLinks = true → ∀ target, stands ≠ .link target)) ∨
    (options.followLinks = true ∧ (∃ target, stands = .link target) ∧
      ∃ l, env.find child = .ok (l, node) ∧ (node = .folder → ∀ a ∈ above, a.location ≠ l)) := by
  unfold followEntry at h
  split at h
  case h_1 target hfollow =>
    right
    obtain ⟨⟨l, node'⟩, hfind, h⟩ := Attempt.bind_eq_ok.1 h
    have hfind := Attempt.mapError_eq_ok.1 hfind
    cases hloop : above.find? (·.location == l) with
    | none =>
      have hnode : node' = node := by simpa [hloop, pure, Except.pure] using h
      rw [hnode] at hfind
      refine ⟨hfollow, ⟨target, rfl⟩, l, hfind, fun _ a ha => ?_⟩
      simpa using List.find?_eq_none.1 hloop a ha
    | some ancestor =>
      simp only [hloop] at h
      cases node' with
      | folder => cases h
      | file content =>
        cases h
        exact ⟨hfollow, ⟨target, rfl⟩, l, hfind, nofun⟩
      | link target' =>
        cases h
        exact ⟨hfollow, ⟨target, rfl⟩, l, hfind, nofun⟩
  case h_2 hnot =>
    cases h
    exact Or.inl ⟨rfl, fun hfollow target htarget => hnot target hfollow htarget⟩

theorem followEntry_eq_error {child : Path}
    (h : followEntry env options above child stands = .error e) :
    options.followLinks = true ∧ (∃ target, stands = .link target) ∧
      ((∃ cause, env.find child = .error cause ∧ e = .readFolder child cause) ∨
      ∃ l ancestor, env.find child = .ok (l, .folder) ∧ ancestor ∈ above ∧
        ancestor.location = l ∧ e = .linkLoop child ancestor.path) := by
  unfold followEntry at h
  split at h
  case h_1 target hfollow =>
    refine ⟨hfollow, ⟨target, rfl⟩, ?_⟩
    obtain h | ⟨⟨l, node⟩, hfind, h⟩ := Attempt.bind_eq_error.1 h
    · obtain ⟨cause, hcause, rfl⟩ := Attempt.mapError_eq_error.1 h
      exact Or.inl ⟨cause, hcause, rfl⟩
    · have hfind := Attempt.mapError_eq_ok.1 hfind
      cases hloop : above.find? (·.location == l) with
      | none => simp [hloop, pure, Except.pure] at h
      | some ancestor =>
        simp only [hloop] at h
        cases node with
        | folder =>
          cases h
          exact Or.inr ⟨l, ancestor, hfind, List.mem_of_find?_eq_some hloop,
            by simpa using List.find?_some hloop, rfl⟩
        | file content => cases h
        | link target' => cases h
  case h_2 => cases h

theorem mem_visitEntry
    (h : visitEntry env options descend above folder (name, stands) = .ok found) :
    ∃ node, followEntry env options above (folder.join name.bytes) stands = .ok node ∧
      (p ∈ found ↔ options.prunes name = false ∧
        ((∃ more, node = .folder ∧ descend (folder.join name.bytes) = .ok more ∧ p ∈ more) ∨
        ∃ content, node = .file content ∧ options.accepts name = true ∧
          p = folder.join name.bytes)) := by
  obtain ⟨node, hnode, h⟩ := Attempt.bind_eq_ok.1 h
  refine ⟨node, hnode, ?_⟩
  cases hprunes : options.prunes name with
  | true =>
    simp only [hprunes, if_true] at h
    cases h
    simp
  | false =>
    simp only [hprunes, Bool.false_eq_true, if_false] at h
    cases node with
    | folder => simp [h]
    | file content =>
      cases h
      cases haccepts : options.accepts name <;> simp
    | link target =>
      cases h
      simp

theorem descend_eq_ok_of_visitEntry
    (h : visitEntry env options descend above folder (name, stands) = .ok found)
    (hnode : followEntry env options above (folder.join name.bytes) stands = .ok .folder)
    (hprunes : options.prunes name = false) : descend (folder.join name.bytes) = .ok found := by
  obtain ⟨node, hnode', h⟩ := Attempt.bind_eq_ok.1 h
  cases hnode.symm.trans hnode'
  simpa [hprunes] using h

theorem visitEntry_eq_error
    (h : visitEntry env options descend above folder (name, stands) = .error e) :
    followEntry env options above (folder.join name.bytes) stands = .error e ∨
      followEntry env options above (folder.join name.bytes) stands = .ok .folder ∧
        options.prunes name = false ∧ descend (folder.join name.bytes) = .error e := by
  obtain h | ⟨node, hnode, h⟩ := Attempt.bind_eq_error.1 h
  · exact Or.inl h
  · right
    cases hprunes : options.prunes name with
    | true =>
      simp only [hprunes, if_true] at h
      cases h
    | false =>
      simp only [hprunes, Bool.false_eq_true, if_false] at h
      cases node with
      | folder => exact ⟨hnode, rfl, h⟩
      | file content => cases h
      | link target => cases h

end Entry

section Search

variable {room : Nat} {v v' : Visit} {found : List Path} {e : Error}

theorem searchFolder_eq_ok (h : searchFolder env options room v.above v.folder = .ok found) :
    ∃ room' l entries parts, room = room' + 1 ∧ env.readFolder v.folder = .ok (l, entries) ∧
      entries.mapM (visitEntry env options (searchFolder env options room' (v.within l))
        (v.within l) v.folder) = .ok parts ∧ parts.flatten = found := by
  cases room with
  | zero => cases h
  | succ room =>
    obtain ⟨⟨l, entries⟩, hread, h⟩ := Attempt.bind_eq_ok.1 h
    obtain ⟨parts, hparts, h⟩ := Attempt.bind_eq_ok.1 h
    exact ⟨room, l, entries, parts, rfl, Attempt.mapError_eq_ok.1 hread, hparts, Except.ok.inj h⟩

theorem not_fails_of_searchFolder
    (h : searchFolder env options room v.above v.folder = .ok found)
    (hv : v.Reaches env options v') : ¬ v'.Fails env options e := by
  induction room generalizing v found with
  | zero => cases h
  | succ room ih =>
    obtain ⟨_, l, entries, parts, hroom, hread, hparts, rfl⟩ := searchFolder_eq_ok h
    cases hroom
    have hok := Attempt.mapM_isOk_iff.1 ⟨parts, hparts⟩
    obtain rfl | ⟨w, henters, hw⟩ := hv.cases_head
    · rintro (⟨cause, hcause, -⟩ | ⟨l', entries', name, stands, hread', hmem, hfails⟩)
      · cases hread.symm.trans hcause
      · cases hread.symm.trans hread'
        obtain ⟨part, hpart⟩ := hok _ hmem
        obtain ⟨node, hnode, -⟩ := mem_visitEntry (p := []) hpart
        cases hnode.symm.trans hfails
    · cases henters with
      | entry hmeets =>
        obtain ⟨entries', stands, hread', hmem, hnode, hprunes⟩ := hmeets
        cases hread.symm.trans hread'
        obtain ⟨part, hpart⟩ := hok _ hmem
        exact ih (v := ⟨v.within l, _⟩) (descend_eq_ok_of_visitEntry hpart hnode hprunes) hw

theorem mem_searchFolder (h : searchFolder env options room v.above v.folder = .ok found)
    {p : Path} : p ∈ found ↔ ∃ v' l name content, v.Reaches env options v' ∧
      v'.Meets env options l name (.file content) ∧ options.accepts name = true ∧
      p = v'.folder.join name.bytes := by
  induction room generalizing v found with
  | zero => cases h
  | succ room ih =>
    obtain ⟨_, l, entries, parts, hroom, hread, hparts, rfl⟩ := searchFolder_eq_ok h
    cases hroom
    rw [List.mem_flatten]
    constructor
    · rintro ⟨part, hpart, hp⟩
      obtain ⟨⟨name, stands⟩, hmem, hpart⟩ := (Attempt.mem_iff_of_mapM_eq_ok hparts).1 hpart
      obtain ⟨node, hnode, hiff⟩ := mem_visitEntry (p := p) hpart
      obtain ⟨hprunes, ⟨more, rfl, hmore, hp⟩ | ⟨content, rfl, haccepts, hp⟩⟩ := hiff.1 hp
      · obtain ⟨v', l', name', content, hv', hrest⟩ :=
          (ih (v := ⟨v.within l, v.folder.join name.bytes⟩) hmore).1 hp
        have henters : v.Enters env options ⟨v.within l, v.folder.join name.bytes⟩ :=
          .entry ⟨entries, stands, hread, hmem, hnode, hprunes⟩
        exact ⟨v', l', name', content, hv'.head henters, hrest⟩
      · exact ⟨v, l, name, content, .refl, ⟨entries, stands, hread, hmem, hnode, hprunes⟩,
          haccepts, hp⟩
    · rintro ⟨v', l', name, content, hv, hmeets, haccepts, rfl⟩
      have hok := Attempt.mapM_isOk_iff.1 ⟨parts, hparts⟩
      obtain rfl | ⟨w, henters, hw⟩ := hv.cases_head
      · obtain ⟨entries', stands, hread', hmem, hnode, hprunes⟩ := hmeets
        cases hread.symm.trans hread'
        obtain ⟨part, hpart⟩ := hok _ hmem
        obtain ⟨node, hnode', hiff⟩ := mem_visitEntry (p := v.folder.join name.bytes) hpart
        cases hnode.symm.trans hnode'
        exact ⟨part, (Attempt.mem_iff_of_mapM_eq_ok hparts).2 ⟨_, hmem, hpart⟩,
          hiff.2 ⟨hprunes, Or.inr ⟨content, rfl, haccepts, rfl⟩⟩⟩
      · cases henters with
        | entry hmeets' =>
          obtain ⟨entries', stands, hread', hmem, hnode, hprunes⟩ := hmeets'
          cases hread.symm.trans hread'
          obtain ⟨part, hpart⟩ := hok _ hmem
          refine ⟨part, (Attempt.mem_iff_of_mapM_eq_ok hparts).2 ⟨_, hmem, hpart⟩, ?_⟩
          exact (ih (v := ⟨v.within l, _⟩) (descend_eq_ok_of_visitEntry hpart hnode hprunes)).2
            ⟨v', l', name, content, hw, hmeets, haccepts, rfl⟩

theorem exists_fails_of_searchFolder (hne : v.folder ≠ []) (hnul : 0 ∉ v.folder)
    (hroom : FileTree.maxPathLength < room + v.folder.length)
    (h : searchFolder env options room v.above v.folder = .error e) :
    ∃ v', v.Reaches env options v' ∧ v'.Fails env options e := by
  induction room generalizing v with
  | zero =>
    -- No room is left only for a path that is too long to be looked up.
    cases h
    have hlen : FileTree.maxPathLength < v.folder.length := by omega
    exact ⟨v, .refl, Or.inl ⟨_, Environment.readFolder_too_long hnul hlen, rfl⟩⟩
  | succ room ih =>
    obtain h | ⟨⟨l, entries⟩, hread, h⟩ := Attempt.bind_eq_error.1 h
    · obtain ⟨cause, hcause, rfl⟩ := Attempt.mapError_eq_error.1 h
      exact ⟨v, .refl, Or.inl ⟨cause, hcause, rfl⟩⟩
    · have hread := Attempt.mapError_eq_ok.1 hread
      obtain h | ⟨parts, -, h⟩ := Attempt.bind_eq_error.1 h
      · obtain ⟨⟨name, stands⟩, hmem, h⟩ := Attempt.mem_of_mapM_eq_error h
        obtain h | ⟨hnode, hprunes, h⟩ := visitEntry_eq_error h
        · exact ⟨v, .refl, Or.inr ⟨l, entries, name, stands, hread, hmem, h⟩⟩
        · have hlen := Path.length_lt_join hne name
          obtain ⟨v', hv', he⟩ := ih (v := ⟨v.within l, v.folder.join name.bytes⟩)
            (Path.join_ne_nil hne name) (Path.nul_notMem_join hne hnul name)
            (by simp only; omega) h
          exact ⟨v', hv'.head (.entry ⟨entries, stands, hread, hmem, hnode, hprunes⟩), he⟩
      · cases h

theorem Visit.Reaches.exists_below (h : v.Reaches env options v') :
    ∃ names, v'.folder = v.folder.below names := by
  induction h with
  | refl => exact ⟨[], rfl⟩
  | tail hv henters ih =>
    obtain ⟨names, hnames⟩ := ih
    cases henters with
    | @entry l name hmeets => exact ⟨names ++ [name], by rw [Path.below_concat, hnames]⟩

theorem exists_below_of_visitEntry {l : Location} {entry : Name × Node} {p : Path}
    (h : visitEntry env options (searchFolder env options room (v.within l)) (v.within l) v.folder
      entry = .ok found) (hp : p ∈ found) : ∃ names, p = v.folder.below (entry.1 :: names) := by
  obtain ⟨name, stands⟩ := entry
  obtain ⟨node, -, hiff⟩ := mem_visitEntry (p := p) h
  obtain ⟨-, ⟨more, -, hmore, hp⟩ | ⟨content, -, -, hp⟩⟩ := hiff.1 hp
  · obtain ⟨w, l', name', content, hw, -, -, rfl⟩ :=
      (mem_searchFolder (v := ⟨v.within l, v.folder.join name.bytes⟩) hmore).1 hp
    obtain ⟨names, hnames⟩ := hw.exists_below
    exact ⟨names ++ [name'], by rw [← List.cons_append, Path.below_concat, hnames]; rfl⟩
  · exact ⟨[], hp⟩

theorem nodup_searchFolder (hne : v.folder ≠ [])
    (h : searchFolder env options room v.above v.folder = .ok found) : found.Nodup := by
  induction room generalizing v found with
  | zero => cases h
  | succ room ih =>
    obtain ⟨_, l, entries, parts, hroom, hread, hparts, rfl⟩ := searchFolder_eq_ok h
    cases hroom
    rw [List.nodup_flatten]
    constructor
    · intro part hpart
      obtain ⟨⟨name, stands⟩, hmem, h⟩ := (Attempt.mem_iff_of_mapM_eq_ok hparts).1 hpart
      obtain ⟨node, hnode, h⟩ := Attempt.bind_eq_ok.1 h
      split at h
      · cases h
        exact .nil
      · cases node with
        | folder => exact ih (v := ⟨v.within l, _⟩) (Path.join_ne_nil hne name) h
        | file content =>
          cases h
          split <;> simp
        | link target =>
          cases h
          exact .nil
    · -- The paths below two entries differ in the name of the entry.
      obtain ⟨-, rfl⟩ := Environment.readFolder_eq_ok.1 hread
      refine Attempt.pairwise_of_mapM_eq_ok hparts ?_ (env.tree.entries_names_ne l)
      intro entry entry' part part' hnames hpart hpart' p hp hp'
      obtain ⟨names, hp⟩ := exists_below_of_visitEntry hpart hp
      obtain ⟨names', hp'⟩ := exists_below_of_visitEntry hpart' hp'
      exact hnames (List.cons.inj (Path.below_injective hne (hp.symm.trans hp'))).1

variable {root : Path}

theorem discover_eq_ok (h : discover env options root = .ok found) :
    (∃ l, env.find root = .ok (l, .folder)) ∧
      ∃ room, searchFolder env options room [] root = .ok found := by
  obtain ⟨⟨l, node⟩, hfind, h⟩ := Attempt.bind_eq_ok.1 h
  have hfind := Attempt.mapError_eq_ok.1 hfind
  cases node with
  | folder => exact ⟨⟨l, hfind⟩, _, h⟩
  | file content => cases h
  | link target => cases h

theorem discover_eq_error (h : discover env options root = .error e) :
    (∃ cause, env.find root = .error cause ∧ e = .readFolder root cause) ∨
    (∃ l node, env.find root = .ok (l, node) ∧ node ≠ .folder ∧ e = .notAFolder root) ∨
    (∃ l, env.find root = .ok (l, .folder)) ∧
      ∃ v, Visit.Reaches env options ⟨[], root⟩ v ∧ v.Fails env options e := by
  obtain h | ⟨⟨l, node⟩, hfind, h⟩ := Attempt.bind_eq_error.1 h
  · obtain ⟨cause, hcause, rfl⟩ := Attempt.mapError_eq_error.1 h
    exact Or.inl ⟨cause, hcause, rfl⟩
  · have hfind := Attempt.mapError_eq_ok.1 hfind
    right
    cases node with
    | folder =>
      obtain ⟨⟨hne, hnul, hlen⟩, -⟩ := Environment.walkLinks_of_lookup hfind
      exact Or.inr ⟨⟨l, hfind⟩, exists_fails_of_searchFolder (v := ⟨[], root⟩) hne hnul
        (by simp only; omega) h⟩
    | file content =>
      cases h
      exact Or.inl ⟨l, _, hfind, by simp, rfl⟩
    | link target =>
      cases h
      exact Or.inl ⟨l, _, hfind, by simp, rfl⟩

theorem discover_isOk_iff : (∃ found, discover env options root = .ok found) ↔
    (∃ l, env.find root = .ok (l, .folder)) ∧
      ∀ v, Visit.Reaches env options ⟨[], root⟩ v → ∀ e, ¬ v.Fails env options e := by
  constructor
  · rintro ⟨found, h⟩
    obtain ⟨hroot, room, hsearch⟩ := discover_eq_ok h
    exact ⟨hroot, fun v hv e => not_fails_of_searchFolder (v := ⟨[], root⟩) hsearch hv⟩
  · rintro ⟨⟨l, hfind⟩, hok⟩
    cases h : discover env options root with
    | ok found => exact ⟨found, rfl⟩
    | error e =>
      obtain ⟨cause, hcause, -⟩ | ⟨l', node, hfind', hne, -⟩ | ⟨-, v, hv, he⟩ := discover_eq_error h
      · cases hfind.symm.trans hcause
      · cases hfind.symm.trans hfind'
        exact absurd rfl hne
      · exact absurd he (hok v hv e)

end Search

end StyleVars.Scan
