import StyleVars.Proofs.Path.Below

namespace StyleVars.FileTree

variable {tree : FileTree} {followLast : Bool}

theorem entryOf?_eq_some {folder l : Location} {name : Name} :
    entryOf? folder l = some name ↔ l = folder ++ [name] := by
  unfold entryOf?
  constructor
  · intro h
    split at h
    · split at h
      · cases h
        assumption
      · cases h
    · cases h
  · rintro rfl
    simp

theorem node?_concat (l : Location) (name : Name) :
    tree.node? (l ++ [name]) = tree.nodes.lookup (l ++ [name]) := by
  cases l <;> rfl

theorem lookup_eq_some {l : Location} {node : Node} :
    tree.nodes.lookup l = some node ↔ (l, node) ∈ tree.nodes := by
  have hnodup := tree.nodup
  generalize tree.nodes = nodes at hnodup ⊢
  induction nodes with
  | nil => simp
  | cons e nodes ih =>
    obtain ⟨l', node'⟩ := e
    simp only [List.map_cons, List.nodup_cons] at hnodup
    rw [List.lookup_cons, List.mem_cons, Prod.mk.injEq]
    by_cases hl : l = l'
    · subst hl
      have hnot : (l, node) ∉ nodes := fun h => hnodup.1 (List.mem_map_of_mem h)
      simp [hnot, eq_comm]
    · have hbeq : (l == l') = false := beq_eq_false_iff_ne.2 hl
      simp [hbeq, hl, ih hnodup.2]

theorem mem_entries {l : Location} {name : Name} {node : Node} :
    (name, node) ∈ tree.entries l ↔ tree.node? (l ++ [name]) = some node := by
  rw [node?_concat, lookup_eq_some, entries, List.mem_filterMap]
  constructor
  · rintro ⟨⟨l', node'⟩, hmem, h⟩
    obtain ⟨name', hname, h⟩ := Option.map_eq_some_iff.1 h
    cases h
    rwa [← entryOf?_eq_some.1 hname]
  · intro h
    exact ⟨_, h, by simp [entryOf?_eq_some.2 rfl]⟩

theorem entries_names_ne (tree : FileTree) (l : Location) :
    (tree.entries l).Pairwise fun e e' => e.1 ≠ e'.1 := by
  refine (List.pairwise_map.1 tree.nodup).filterMap _ ?_
  rintro ⟨a, node⟩ ⟨b, node'⟩ hne ⟨name, _⟩ ha ⟨name', _⟩ hb rfl
  obtain ⟨n, hn, h⟩ := Option.map_eq_some_iff.1 ha
  obtain ⟨n', hn', h'⟩ := Option.map_eq_some_iff.1 hb
  cases h
  cases h'
  exact hne ((entryOf?_eq_some.1 hn).trans (entryOf?_eq_some.1 hn').symm)

section

variable {n : Nat} {l : Location} {name : Name} {rest : List Bytes}
  {through : Location → List Bytes → Except Fault (Location × Node)}

theorem walkSteps_dot :
    walkSteps tree followLast through l (Path.dot :: rest) =
      walkSteps tree followLast through l rest := by
  rw [walkSteps, if_pos rfl]

theorem walkSteps_dotDot :
    walkSteps tree followLast through l (Path.dotDot :: rest) =
      walkSteps tree followLast through l.dropLast rest := by
  rw [walkSteps, if_neg (by decide), if_pos rfl]

theorem walkSteps_name :
    walkSteps tree followLast through l (name.bytes :: rest) =
      match tree.node? (l ++ [name]) with
      | none => .error .missing
      | some .folder => walkSteps tree followLast through (l ++ [name]) rest
      | some (.file content) =>
        if rest.isEmpty then .ok (l ++ [name], .file content) else .error .throughFile
      | some (.link target) =>
        if rest.isEmpty && !followLast then .ok (l ++ [name], .link target)
        else through (if target.isAbsolute then [] else l) (lookupSteps target ++ rest) := by
  rw [walkSteps, if_neg name.ne_dot, if_neg name.ne_dotDot, if_neg (Nat.not_lt.2 name.length_le)]
  have hname := Name.ofBytes?_bytes name
  generalize Name.ofBytes? name.bytes = n at hname ⊢
  subst hname
  rfl

theorem step_cases (step : Bytes) :
    step = Path.dot ∨ step = Path.dotDot ∨ (∃ name : Name, step = name.bytes) ∨
      ∃ fault, ∀ tree followLast through l rest,
        walkSteps tree followLast through l (step :: rest) = .error fault := by
  by_cases hdot : step = Path.dot
  · exact Or.inl hdot
  by_cases hdotDot : step = Path.dotDot
  · exact Or.inr (Or.inl hdotDot)
  refine Or.inr (Or.inr ?_)
  by_cases hlong : maxNameLength < step.length
  · refine Or.inr ⟨.nameTooLong, fun tree followLast through l rest => ?_⟩
    rw [walkSteps, if_neg hdot, if_neg hdotDot, if_pos hlong]
  cases hname : Name.ofBytes? step with
  | none =>
    refine Or.inr ⟨.missing, fun tree followLast through l rest => ?_⟩
    rw [walkSteps, if_neg hdot, if_neg hdotDot, if_neg hlong, hname]
  | some name => exact Or.inl ⟨name, (Name.ofBytes?_eq_some hname).symm⟩

theorem walkLinks_eq_walkSteps (tree : FileTree) (followLast : Bool) (n : Nat) :
    ∃ through, walkLinks tree followLast n = walkSteps tree followLast through := by
  cases n with
  | zero => exact ⟨_, rfl⟩
  | succ n => exact ⟨_, rfl⟩

theorem walkLinks_dot :
    walkLinks tree followLast n l (Path.dot :: rest) = walkLinks tree followLast n l rest := by
  obtain ⟨through, hthrough⟩ := walkLinks_eq_walkSteps tree followLast n
  rw [hthrough, walkSteps_dot]

theorem walkLinks_dotDot :
    walkLinks tree followLast n l (Path.dotDot :: rest) =
      walkLinks tree followLast n l.dropLast rest := by
  obtain ⟨through, hthrough⟩ := walkLinks_eq_walkSteps tree followLast n
  rw [hthrough, walkSteps_dotDot]

theorem walkLinks_folder (hname : tree.node? (l ++ [name]) = some .folder) :
    walkLinks tree followLast n l (name.bytes :: rest) =
      walkLinks tree followLast n (l ++ [name]) rest := by
  obtain ⟨through, hthrough⟩ := walkLinks_eq_walkSteps tree followLast n
  rw [hthrough, walkSteps_name, hname]

end

/-- The steps lead from a folder to a node, through as many links as it takes. -/
inductive Leads (tree : FileTree) (followLast : Bool) :
    Location → List Bytes → Location → Node → Prop where
  | here {l : Location} : Leads tree followLast l [] l .folder
  | dot {l l' : Location} {rest : List Bytes} {node : Node}
      (hrest : Leads tree followLast l rest l' node) :
      Leads tree followLast l (Path.dot :: rest) l' node
  | dotDot {l l' : Location} {rest : List Bytes} {node : Node}
      (hrest : Leads tree followLast l.dropLast rest l' node) :
      Leads tree followLast l (Path.dotDot :: rest) l' node
  | folder {l l' : Location} {name : Name} {rest : List Bytes} {node : Node}
      (hname : tree.node? (l ++ [name]) = some .folder)
      (hrest : Leads tree followLast (l ++ [name]) rest l' node) :
      Leads tree followLast l (name.bytes :: rest) l' node
  | file {l : Location} {name : Name} {content : Bytes}
      (hname : tree.node? (l ++ [name]) = some (.file content)) :
      Leads tree followLast l [name.bytes] (l ++ [name]) (.file content)
  | lastLink {l : Location} {name : Name} {target : Path} (hlast : followLast = false)
      (hname : tree.node? (l ++ [name]) = some (.link target)) :
      Leads tree followLast l [name.bytes] (l ++ [name]) (.link target)
  | link {l l' : Location} {name : Name} {target : Path} {rest : List Bytes} {node : Node}
      (hfollow : followLast = true ∨ rest ≠ [])
      (hname : tree.node? (l ++ [name]) = some (.link target))
      (hrest : Leads tree followLast (if target.isAbsolute then [] else l)
        (lookupSteps target ++ rest) l' node) :
      Leads tree followLast l (name.bytes :: rest) l' node

theorem leads_of_walkSteps {through : Location → List Bytes → Except Fault (Location × Node)}
    (hthrough : ∀ l steps l' node, through l steps = .ok (l', node) →
      Leads tree followLast l steps l' node)
    {l l' : Location} {steps : List Bytes} {node : Node}
    (h : walkSteps tree followLast through l steps = .ok (l', node)) :
    Leads tree followLast l steps l' node := by
  induction steps generalizing l with
  | nil =>
    cases h
    exact .here
  | cons step rest ih =>
    obtain rfl | rfl | ⟨name, rfl⟩ | ⟨fault, hfault⟩ := step_cases step
    · rw [walkSteps_dot] at h
      exact .dot (ih h)
    · rw [walkSteps_dotDot] at h
      exact .dotDot (ih h)
    · rw [walkSteps_name] at h
      split at h
      case h_1 => cases h
      case h_2 hnode => exact .folder hnode (ih h)
      case h_3 content hnode =>
        split at h
        case isTrue hrest =>
          obtain rfl := List.isEmpty_iff.1 hrest
          cases h
          exact .file hnode
        case isFalse => cases h
      case h_4 target hnode =>
        split at h
        case isTrue hlast =>
          simp only [Bool.and_eq_true, List.isEmpty_iff, Bool.not_eq_true'] at hlast
          obtain ⟨rfl, hlast⟩ := hlast
          cases h
          exact .lastLink hlast hnode
        case isFalse hlast =>
          refine .link ?_ hnode (hthrough _ _ _ _ h)
          cases followLast
          · exact Or.inr (by simpa using hlast)
          · exact Or.inl rfl
    · rw [hfault] at h
      cases h

theorem leads_of_walkLinks {n : Nat} {l l' : Location} {steps : List Bytes} {node : Node}
    (h : walkLinks tree followLast n l steps = .ok (l', node)) :
    Leads tree followLast l steps l' node := by
  induction n generalizing l steps l' node with
  | zero => exact leads_of_walkSteps (fun _ _ _ _ h => by cases h) h
  | succ n ih => exact leads_of_walkSteps (fun _ _ _ _ h => ih h) h

/-- Steps lead just where a walk ends that may go through links enough. -/
theorem leads_iff_walkLinks {l l' : Location} {steps : List Bytes} {node : Node} :
    Leads tree followLast l steps l' node ↔
      ∃ n, walkLinks tree followLast n l steps = .ok (l', node) := by
  constructor
  · intro h
    induction h with
    | here => exact ⟨0, rfl⟩
    | dot hrest ih =>
      obtain ⟨n, hn⟩ := ih
      exact ⟨n, by rw [walkLinks_dot, hn]⟩
    | dotDot hrest ih =>
      obtain ⟨n, hn⟩ := ih
      exact ⟨n, by rw [walkLinks_dotDot, hn]⟩
    | folder hname hrest ih =>
      obtain ⟨n, hn⟩ := ih
      exact ⟨n, by rw [walkLinks_folder hname, hn]⟩
    | file hname => exact ⟨0, by rw [walkLinks, walkSteps_name, hname]; rfl⟩
    | lastLink hlast hname => exact ⟨0, by rw [walkLinks, walkSteps_name, hname, hlast]; rfl⟩
    | link hfollow hname hrest ih =>
      obtain ⟨n, hn⟩ := ih
      refine ⟨n + 1, ?_⟩
      rw [walkLinks, walkSteps_name, hname, ← hn]
      exact if_neg (by simpa [imp_iff_not_or] using hfollow.symm)
  · rintro ⟨n, h⟩
    exact leads_of_walkLinks h

namespace Leads

variable {l l' m : Location} {steps more : List Bytes} {node : Node} {name : Name}

theorem of_dot (h : Leads tree followLast l (Path.dot :: more) l' node) :
    Leads tree followLast l more l' node := by
  generalize hsteps : Path.dot :: more = steps at h
  cases h with
  | here => cases hsteps
  | dot hrest =>
    obtain ⟨-, rfl⟩ := List.cons.inj hsteps
    exact hrest
  | dotDot hrest => exact absurd (List.cons.inj hsteps).1 (by decide)
  | @folder _ _ name => exact absurd (List.cons.inj hsteps).1.symm name.ne_dot
  | @file _ name => exact absurd (List.cons.inj hsteps).1.symm name.ne_dot
  | @lastLink _ name => exact absurd (List.cons.inj hsteps).1.symm name.ne_dot
  | @link _ _ name => exact absurd (List.cons.inj hsteps).1.symm name.ne_dot

theorem of_dotDot (h : Leads tree followLast l (Path.dotDot :: more) l' node) :
    Leads tree followLast l.dropLast more l' node := by
  generalize hsteps : Path.dotDot :: more = steps at h
  cases h with
  | here => cases hsteps
  | dot hrest => exact absurd (List.cons.inj hsteps).1 (by decide)
  | dotDot hrest =>
    obtain ⟨-, rfl⟩ := List.cons.inj hsteps
    exact hrest
  | @folder _ _ name => exact absurd (List.cons.inj hsteps).1.symm name.ne_dotDot
  | @file _ name => exact absurd (List.cons.inj hsteps).1.symm name.ne_dotDot
  | @lastLink _ name => exact absurd (List.cons.inj hsteps).1.symm name.ne_dotDot
  | @link _ _ name => exact absurd (List.cons.inj hsteps).1.symm name.ne_dotDot

theorem name_cases (h : Leads tree followLast l (name.bytes :: more) l' node) :
    (tree.node? (l ++ [name]) = some .folder ∧ Leads tree followLast (l ++ [name]) more l' node) ∨
    (∃ content, tree.node? (l ++ [name]) = some (.file content) ∧ more = [] ∧ l' = l ++ [name] ∧
      node = .file content) ∨
    ∃ target, tree.node? (l ++ [name]) = some (.link target) ∧
      ((followLast = false ∧ more = [] ∧ l' = l ++ [name] ∧ node = .link target) ∨
      ((followLast = true ∨ more ≠ []) ∧
        Leads tree followLast (if target.isAbsolute then [] else l) (lookupSteps target ++ more)
          l' node)) := by
  generalize hsteps : name.bytes :: more = steps at h
  cases h with
  | here => cases hsteps
  | dot hrest => exact absurd (List.cons.inj hsteps).1 name.ne_dot
  | dotDot hrest => exact absurd (List.cons.inj hsteps).1 name.ne_dotDot
  | @folder _ _ name' rest _ hname hrest =>
    obtain ⟨hbytes, rfl⟩ := List.cons.inj hsteps
    obtain rfl := Name.bytes_injective hbytes
    exact Or.inl ⟨hname, hrest⟩
  | @file _ name' content hname =>
    obtain ⟨hbytes, rfl⟩ := List.cons.inj hsteps
    obtain rfl := Name.bytes_injective hbytes
    exact Or.inr (Or.inl ⟨content, hname, rfl, rfl, rfl⟩)
  | @lastLink _ name' target hlast hname =>
    obtain ⟨hbytes, rfl⟩ := List.cons.inj hsteps
    obtain rfl := Name.bytes_injective hbytes
    exact Or.inr (Or.inr ⟨target, hname, Or.inl ⟨hlast, rfl, rfl, rfl⟩⟩)
  | @link _ _ name' target rest _ hfollow hname hrest =>
    obtain ⟨hbytes, rfl⟩ := List.cons.inj hsteps
    obtain rfl := Name.bytes_injective hbytes
    exact Or.inr (Or.inr ⟨target, hname, Or.inr ⟨hfollow, hrest⟩⟩)

theorem unique {l₁ l₂ : Location} {node₁ node₂ : Node}
    (h₁ : Leads tree followLast l steps l₁ node₁) (h₂ : Leads tree followLast l steps l₂ node₂) :
    l₁ = l₂ ∧ node₁ = node₂ := by
  induction h₁ with
  | here =>
    cases h₂
    exact ⟨rfl, rfl⟩
  | dot hrest ih => exact ih h₂.of_dot
  | dotDot hrest ih => exact ih h₂.of_dotDot
  | folder hname hrest ih =>
    obtain ⟨-, h⟩ | ⟨content, h, -⟩ | ⟨target, h, -⟩ := h₂.name_cases
    · exact ih h
    · simp [hname] at h
    · simp [hname] at h
  | file hname =>
    obtain ⟨h, -⟩ | ⟨content, h, -, rfl, rfl⟩ | ⟨target, h, -⟩ := h₂.name_cases
    · simp [hname] at h
    · rw [hname] at h
      cases h
      exact ⟨rfl, rfl⟩
    · simp [hname] at h
  | lastLink hlast hname =>
    obtain ⟨h, -⟩ | ⟨content, h, -⟩ |
      ⟨target, h, ⟨-, -, rfl, rfl⟩ | ⟨hfollow, -⟩⟩ := h₂.name_cases
    · simp [hname] at h
    · simp [hname] at h
    · rw [hname] at h
      cases h
      exact ⟨rfl, rfl⟩
    · simp [hlast] at hfollow
  | link hfollow hname hrest ih =>
    obtain ⟨h, -⟩ | ⟨content, h, -⟩ | ⟨target, h, ⟨hlast, hrest, -⟩ | ⟨-, h'⟩⟩ := h₂.name_cases
    · simp [hname] at h
    · simp [hname] at h
    · simp [hlast, hrest] at hfollow
    · rw [hname] at h
      cases h
      exact ih h'

theorem append (hfollow : followLast = true ∨ more ≠ []) (h : Leads tree true l steps m .folder)
    (hmore : Leads tree followLast m more l' node) :
    Leads tree followLast l (steps ++ more) l' node := by
  generalize hm : Node.folder = n at h
  induction h with
  | here => exact hmore
  | dot hrest ih => exact .dot (ih hmore hm)
  | dotDot hrest ih => exact .dotDot (ih hmore hm)
  | folder hname hrest ih => exact .folder hname (ih hmore hm)
  | file hname => cases hm
  | lastLink hlast hname => cases hm
  | link hfollow' hname hrest ih =>
    refine .link ?_ hname (by simpa using ih hmore hm)
    exact hfollow.imp id fun h h' => h (List.append_eq_nil_iff.1 h').2

/-- Steps that go on behind a folder lead through it, whatever links there are before it. -/
theorem split (hmore : more ≠ []) (h : Leads tree followLast l (steps ++ more) l' node) :
    ∃ m, Leads tree true l steps m .folder ∧ Leads tree followLast m more l' node := by
  generalize hall : steps ++ more = all at h
  induction h generalizing steps with
  | here => exact absurd (List.append_eq_nil_iff.1 hall).2 hmore
  | dot hrest ih =>
    obtain ⟨rfl, rfl⟩ | ⟨steps, rfl, htail⟩ := List.append_eq_cons_iff.1 hall
    · exact ⟨_, .here, .dot hrest⟩
    · obtain ⟨m, hm, h⟩ := ih htail.symm
      exact ⟨m, .dot hm, h⟩
  | dotDot hrest ih =>
    obtain ⟨rfl, rfl⟩ | ⟨steps, rfl, htail⟩ := List.append_eq_cons_iff.1 hall
    · exact ⟨_, .here, .dotDot hrest⟩
    · obtain ⟨m, hm, h⟩ := ih htail.symm
      exact ⟨m, .dotDot hm, h⟩
  | folder hname hrest ih =>
    obtain ⟨rfl, rfl⟩ | ⟨steps, rfl, htail⟩ := List.append_eq_cons_iff.1 hall
    · exact ⟨_, .here, .folder hname hrest⟩
    · obtain ⟨m, hm, h⟩ := ih htail.symm
      exact ⟨m, .folder hname hm, h⟩
  | file hname =>
    obtain ⟨rfl, rfl⟩ | ⟨steps, rfl, htail⟩ := List.append_eq_cons_iff.1 hall
    · exact ⟨_, .here, .file hname⟩
    · exact absurd (List.append_eq_nil_iff.1 htail.symm).2 hmore
  | lastLink hlast hname =>
    obtain ⟨rfl, rfl⟩ | ⟨steps, rfl, htail⟩ := List.append_eq_cons_iff.1 hall
    · exact ⟨_, .here, .lastLink hlast hname⟩
    · exact absurd (List.append_eq_nil_iff.1 htail.symm).2 hmore
  | link hfollow hname hrest ih =>
    obtain ⟨rfl, rfl⟩ | ⟨steps, rfl, rfl⟩ := List.append_eq_cons_iff.1 hall
    · exact ⟨_, .here, .link hfollow hname hrest⟩
    · obtain ⟨m, hm, h⟩ := ih (List.append_assoc _ _ _)
      exact ⟨m, .link (Or.inl rfl) hname hm, h⟩

theorem follow (hnode : ∀ target, node ≠ .link target) (h : Leads tree false l steps l' node) :
    Leads tree true l steps l' node := by
  induction h with
  | here => exact .here
  | dot hrest ih => exact .dot (ih hnode)
  | dotDot hrest ih => exact .dotDot (ih hnode)
  | folder hname hrest ih => exact .folder hname (ih hnode)
  | file hname => exact .file hname
  | lastLink hlast hname => exact absurd rfl (hnode _)
  | link hfollow hname hrest ih => exact .link (Or.inl rfl) hname (ih hnode)

theorem here_iff : Leads tree followLast l [] l' node ↔ l' = l ∧ node = .folder := by
  constructor
  · intro h
    exact h.unique .here
  · rintro ⟨rfl, rfl⟩
    exact .here

theorem entry_iff : Leads tree false l [name.bytes] l' node ↔
    l' = l ++ [name] ∧ tree.node? (l ++ [name]) = some node := by
  constructor
  · intro h
    obtain ⟨hname, h⟩ | ⟨content, hname, -, rfl, rfl⟩ |
      ⟨target, hname, ⟨-, -, rfl, rfl⟩ | ⟨hfollow, -⟩⟩ := h.name_cases
    · obtain ⟨rfl, rfl⟩ := here_iff.1 h
      exact ⟨rfl, hname⟩
    · exact ⟨rfl, hname⟩
    · exact ⟨rfl, hname⟩
    · simp at hfollow
  · rintro ⟨rfl, hname⟩
    cases node with
    | folder => exact .folder hname .here
    | file content => exact .file hname
    | link target => exact .lastLink rfl hname

theorem exists_node (h : Leads tree followLast l (name.bytes :: more) l' node) :
    ∃ node', tree.node? (l ++ [name]) = some node' := by
  obtain ⟨hname, -⟩ | ⟨content, hname, -⟩ | ⟨target, hname, -⟩ := h.name_cases
  · exact ⟨_, hname⟩
  · exact ⟨_, hname⟩
  · exact ⟨_, hname⟩

end Leads

end StyleVars.FileTree
