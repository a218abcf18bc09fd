import StyleVars.Proofs.Environment.Leads
import StyleVars.Proofs.FileTree.Straight

namespace StyleVars

open FileTree (lookupSteps maxLinks maxPathLength spelled EndsByName withoutDots)

namespace Path

variable {p : Path} {names : List Bytes}

theorem plain_bytes (name : Name) : Plain name.bytes :=
  ⟨name.ne_nil, name.ne_dot, name.ne_dotDot, name.slash_notMem⟩

theorem steps_toPath (l : Location) : l.toPath.steps = l.map Name.bytes :=
  steps_ofSteps (List.forall_mem_map.2 fun name _ => plain_bytes name)

theorem ofSteps_of_ne_nil (h : names ≠ []) : ofSteps names = names.flatMap (slash :: ·) := by
  cases names with
  | nil => exact absurd rfl h
  | cons name names => rfl

theorem ofSteps_ne_nil (names : List Bytes) : ofSteps names ≠ [] := by
  cases names <;> simp [ofSteps]

theorem nul_notMem_ofSteps (h : ∀ n ∈ names, 0 ∉ n) : 0 ∉ ofSteps names := by
  have hslash : (0 : UInt8) ≠ slash := by decide
  by_cases hnil : names = []
  · rw [hnil]
    exact mt List.mem_singleton.1 hslash
  · rw [ofSteps_of_ne_nil hnil]
    intro hmem
    obtain ⟨n, hn, hmem⟩ := List.mem_flatMap.1 hmem
    exact List.not_mem_cons_of_ne_of_not_mem hslash (h n hn) hmem

theorem getLast?_ofSteps_ne (h : ∀ n ∈ names, Plain n) (hnil : names ≠ []) :
    (ofSteps names).getLast? ≠ some slash := by
  obtain ⟨before, last, rfl⟩ := (List.eq_nil_or_concat' names).resolve_left hnil
  have hplain := h last (by simp)
  rw [ofSteps_of_ne_nil hnil, List.flatMap_append, List.flatMap_singleton,
    List.getLast?_append_of_ne_nil _ (by simp), ← List.singleton_append,
    List.getLast?_append_of_ne_nil _ hplain.ne_nil]
  exact fun hslash => hplain.slash_notMem (List.mem_of_getLast? hslash)

theorem lookupSteps_ofSteps (h : ∀ n ∈ names, Plain n) (hnil : names ≠ []) :
    lookupSteps (ofSteps names) = names := by
  have hlast := getLast?_ofSteps_ne h hnil
  have hkeep : names.filter (!·.isEmpty) = names :=
    List.filter_eq_self.2 fun n hn => by simp [(h n hn).ne_nil]
  rw [lookupSteps, splitOn_ofSteps h, if_neg hnil, if_neg (by simpa using hlast), List.append_nil,
    List.filter_cons_of_neg (by simp), hkeep]

theorem withoutDots_parts (p : Path) : withoutDots p.parts = p.steps := by
  rw [withoutDots, parts, steps, List.filter_filter]
  congr 1
  funext step
  exact Bool.and_comm _ _

theorem steps_join {folder : Path} (hfolder : folder ≠ []) (hp : p.isAbsolute = false) :
    (folder.join p).steps = folder.steps ++ p.steps := by
  rw [← withoutDots_parts, parts_join_relative hfolder hp, FileTree.withoutDots_append,
    withoutDots_parts, withoutDots_parts]

theorem withoutDots_lookupSteps (h : EndsByName (lookupSteps p)) :
    withoutDots (lookupSteps p) = p.steps := by
  obtain hparts | hparts := lookupSteps_cases p
  · rw [hparts, withoutDots_parts]
  · rw [EndsByName, hparts, List.getLast?_concat] at h
    exact absurd rfl h

theorem plain_spelled {l : Location} : ∀ n ∈ spelled l p.steps, Plain n := by
  intro n hn
  obtain h | ⟨h, hne⟩ := mem_foldl_walkStep (List.mem_reverse.1 hn)
  · obtain ⟨name, -, rfl⟩ := List.mem_map.1 (List.mem_reverse.1 h)
    exact plain_bytes name
  · obtain ⟨hnil, hdot, hslash⟩ := mem_steps h
    exact ⟨hnil, hdot, hne, hslash⟩

theorem nul_notMem_spelled (hp : 0 ∉ p) {l : Location} : ∀ n ∈ spelled l p.steps, 0 ∉ n := by
  intro n hn
  obtain h | ⟨h, -⟩ := mem_foldl_walkStep (List.mem_reverse.1 hn)
  · obtain ⟨name, -, rfl⟩ := List.mem_map.1 (List.mem_reverse.1 h)
    exact name.nul_notMem
  · exact fun hmem => hp (subset_of_mem_steps h hmem)

end Path

theorem FileTree.walkLinks_ofSteps {tree : FileTree} {followLast : Bool} {names : List Bytes}
    (h : ∀ n ∈ names, Path.Plain n) (n : Nat) :
    walkLinks tree followLast n [] (lookupSteps (Path.ofSteps names)) =
      walkLinks tree followLast n [] names := by
  by_cases hnil : names = []
  · rw [hnil]
    exact walkLinks_dot
  · rw [Path.lookupSteps_ofSteps h hnil]

namespace Environment

variable {env : Environment} {p q : Path} {start : Location}

theorem absolute_of_start (hhome : p.expandUser env.home = p) (hstart : env.start? p = some start) :
    env.absolute p = .ok (Path.ofSteps (spelled start p.steps)) := by
  rw [absolute, Path.absolute, hhome]
  rw [start?] at hstart
  cases hp : p.isAbsolute with
  | true =>
    rw [if_pos hp] at hstart
    cases hstart
    rfl
  | false =>
    rw [if_neg (by simp [hp])] at hstart
    have hcurrent : env.currentPath = .ok start.toPath := by rw [currentPath, hstart]
    have hfolder : start.toPath ≠ [] := Path.ofSteps_ne_nil _
    have hplain : ∀ n ∈ start.map Name.bytes, Path.Plain n :=
      List.forall_mem_map.2 fun name _ => Path.plain_bytes name
    have hdown := Path.dotDot_notMem_of_plain hplain
    have hclean : Path.clean (start.toPath.join p) = Path.ofSteps (spelled start p.steps) := by
      rw [Path.clean, Path.steps_join hfolder hp, Path.steps_toPath,
        List.foldl_append, Path.foldl_walkStep_of_down hdown, List.append_nil]
      rfl
    rw [hcurrent, ← hclean]
    rfl

theorem find_of_start (hnil : p ≠ []) (hnul : 0 ∉ p) (hlength : p.length ≤ maxPathLength)
    (hstart : env.start? p = some start) :
    env.find p = (env.tree.walkLinks true maxLinks start (lookupSteps p)).mapError .fault := by
  rw [find, FileTree.lookup, if_neg hnul, if_neg (Nat.not_lt.2 hlength),
    if_neg (by simpa using hnil)]
  rw [start?] at hstart
  rw [hstart]

/-- The path does not begin with the home folder, it does not ask for a folder, and it goes up from
folders only, starting at a folder that has only folders above it. -/
structure Straight (env : Environment) (p : Path) : Prop where
  ne_nil : p ≠ []
  nul_notMem : 0 ∉ p
  length_le : p.length ≤ maxPathLength
  expandUser_eq : p.expandUser env.home = p
  endsByName : EndsByName (lookupSteps p)
  stands {start : Location} (h : env.start? p = some start) : env.tree.Stands start
  straight {start : Location} (h : env.start? p = some start) :
    env.tree.Straight start (lookupSteps p)

theorem exists_start (hhome : p.expandUser env.home = p) (h : env.absolute p = .ok q) :
    ∃ start, env.start? p = some start := by
  rw [absolute, Path.absolute, hhome] at h
  rw [start?]
  cases hp : p.isAbsolute with
  | true => exact ⟨[], if_pos rfl⟩
  | false =>
    rw [if_neg (by simp [hp]), currentPath] at h
    cases hcurrent : env.current with
    | some folder => exact ⟨folder, if_neg (by simp)⟩
    | none =>
      rw [hcurrent] at h
      cases h

/-- A straight path leads where it leads when it has been made absolute, if that does not make it
too long to be looked up. -/
theorem Straight.find_eq (h : env.Straight p) (habsolute : env.absolute p = .ok q)
    (hq : q.length ≤ maxPathLength) : env.find q = env.find p := by
  obtain ⟨start, hstart⟩ := exists_start h.expandUser_eq habsolute
  have hspelled := absolute_of_start h.expandUser_eq hstart
  obtain rfl := Except.ok.inj (habsolute.symm.trans hspelled)
  have hroot : env.start? (Path.ofSteps (spelled start p.steps)) = some [] :=
    if_pos (Path.isAbsolute_ofSteps _)
  have hnul := Path.nul_notMem_ofSteps (Path.nul_notMem_spelled h.nul_notMem (l := start))
  rw [find_of_start h.ne_nil h.nul_notMem h.length_le hstart,
    find_of_start (Path.ofSteps_ne_nil _) hnul hq hroot,
    FileTree.walkLinks_ofSteps Path.plain_spelled, ← Path.withoutDots_lookupSteps h.endsByName,
    (h.straight hstart).walkLinks_spelled (h.stands hstart) h.endsByName]

end Environment

end StyleVars
