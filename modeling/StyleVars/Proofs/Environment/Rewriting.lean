import StyleVars.Proofs.Environment.Leads

namespace StyleVars

namespace FileTree

variable {tree : FileTree} {followLast : Bool} {l : Location} {node : Node} {old : Bytes}

theorem node?_set (hl : l ≠ []) (l' : Location) :
    (tree.set l node).node? l' = if l' = l then some node else tree.node? l' := by
  cases l' with
  | nil =>
    rw [if_neg hl.symm]
    rfl
  | cons name rest =>
    refine Option.ext fun node' => ?_
    change (tree.set l node).nodes.lookup (name :: rest) = some node' ↔ _
    rw [lookup_eq_some]
    by_cases h : name :: rest = l
    · subst h
      simp [set, eq_comm]
    · have hnot : (name :: rest, node') ≠ (l, node) := fun heq => h (congrArg Prod.fst heq)
      rw [if_neg h, set, List.mem_append, List.mem_filter]
      simp only [List.mem_singleton, hnot, or_false, bne_iff_ne, ne_eq, h, not_false_eq_true,
        and_true]
      exact lookup_eq_some.symm

theorem ne_nil_of_file (h : tree.node? l = some (.file old)) : l ≠ [] := by
  rintro rfl
  cases h

theorem Leads.node?_of_file {start : Location} {steps : List Bytes}
    (h : Leads tree followLast start steps l (.file old)) : tree.node? l = some (.file old) := by
  generalize hnode : Node.file old = node at h
  induction h with
  | here => cases hnode
  | dot hrest ih => exact ih hnode
  | dotDot hrest ih => exact ih hnode
  | folder hname hrest ih => exact ih hnode
  | file hname => exact hname
  | lastLink hlast hname => cases hnode
  | link hfollow hname hrest ih => exact ih hnode

def rewrite (l : Location) (content : Bytes) : Location × Node → Location × Node
  | (l', .file old) => (l', .file (if l' = l then content else old))
  | found => found

theorem walkSteps_set {through through' : Location → List Bytes → Except Fault (Location × Node)}
    (hfile : tree.node? l = some (.file old)) (content : Bytes)
    (hthrough : ∀ here steps, through' here steps = (through here steps).map (rewrite l content))
    (here : Location) (steps : List Bytes) :
    walkSteps (tree.set l (.file content)) followLast through' here steps =
      (walkSteps tree followLast through here steps).map (rewrite l content) := by
  induction steps generalizing here with
  | nil => rfl
  | cons step rest ih =>
    obtain rfl | rfl | ⟨name, rfl⟩ | ⟨fault, hfault⟩ := step_cases step
    · rw [walkSteps_dot, walkSteps_dot, ih]
    · rw [walkSteps_dotDot, walkSteps_dotDot, ih]
    · rw [walkSteps_name, walkSteps_name, node?_set (ne_nil_of_file hfile)]
      by_cases hl : here ++ [name] = l
      · rw [if_pos hl, hl, hfile]
        cases rest with
        | nil => simp [rewrite, Except.map]
        | cons step rest => rfl
      · rw [if_neg hl]
        cases tree.node? (here ++ [name]) with
        | none => rfl
        | some node =>
          cases node with
          | folder => exact ih _
          | file other =>
            cases rest with
            | nil => simp [rewrite, Except.map, hl]
            | cons step rest => rfl
          | link target =>
            simp only
            split
            · rfl
            · exact hthrough _ _
    · rw [hfault, hfault]
      rfl

theorem walkLinks_set (hfile : tree.node? l = some (.file old)) (content : Bytes) (n : Nat)
    (here : Location) (steps : List Bytes) :
    walkLinks (tree.set l (.file content)) followLast n here steps =
      (walkLinks tree followLast n here steps).map (rewrite l content) := by
  induction n generalizing here steps with
  | zero =>
    rw [walkLinks, walkLinks]
    apply walkSteps_set hfile content
    exact fun _ _ => rfl
  | succ n ih => exact walkSteps_set hfile content ih here steps

end FileTree

namespace Environment

variable {env : Environment} {p : Path} {l : Location} {old content : Bytes}

theorem readBytes_eq_ok :
    env.readBytes p = .ok content ↔ ∃ l, env.find p = .ok (l, .file content) := by
  unfold readBytes
  rw [Attempt.bind_eq_ok]
  constructor
  · rintro ⟨⟨l, node⟩, hfind, h⟩
    cases node with
    | folder => cases h
    | file content' =>
      cases h
      exact ⟨l, hfind⟩
    | link target => cases h
  · rintro ⟨l, hfind⟩
    exact ⟨_, hfind, rfl⟩

theorem node?_of_find (h : env.find p = .ok (l, .file old)) :
    env.tree.node? l = some (.file old) := by
  obtain ⟨-, start, -, h⟩ := leads_of_find h
  exact h.node?_of_file

theorem find_set (hfile : env.tree.node? l = some (.file old)) (content : Bytes) (q : Path) :
    Environment.find { env with tree := env.tree.set l (.file content) } q =
      (env.find q).map (FileTree.rewrite l content) := by
  unfold find FileTree.lookup
  -- The limits of a look-up hang on the path alone.
  by_cases hnul : 0 ∈ q
  · rw [if_pos hnul, if_pos hnul]
    rfl
  by_cases hlong : FileTree.maxPathLength < q.length
  · rw [if_neg hnul, if_neg hnul, if_pos hlong, if_pos hlong]
    rfl
  by_cases hempty : q.isEmpty
  · rw [if_neg hnul, if_neg hnul, if_neg hlong, if_neg hlong, if_pos hempty, if_pos hempty]
    rfl
  rw [if_neg hnul, if_neg hnul, if_neg hlong, if_neg hlong, if_neg hempty, if_neg hempty]
  generalize (if q.isAbsolute then some [] else env.current) = start?
  cases start? with
  | none => rfl
  | some start =>
    simp only [FileTree.walkLinks_set hfile]
    cases env.tree.walkLinks true FileTree.maxLinks start (FileTree.lookupSteps q) <;> rfl

theorem writeText_of_find (h : env.find p = .ok (l, .file old)) (t : Text) :
    env.writeText p t = .ok { env with tree := env.tree.set l (.file (Utf8.encode t)) } := by
  unfold writeText
  rw [h]
  rfl

/-- The two environments differ in the content of one file only. The path leads to that file, and
reading it gives the new content. -/
structure Rewritten (env env' : Environment) (p : Path) (content : Bytes) : Prop where
  file : ∃ l old, env.Leads true p l (.file old) ∧ env'.tree.node? l = some (.file content) ∧
    ∀ l', l' ≠ l → env'.tree.node? l' = env.tree.node? l'
  read : env'.readBytes p = .ok content
  current : env'.current = env.current
  home : env'.home = env.home
  configHome : env'.configHome = env.configHome

theorem exists_writeText (h : env.readBytes p = .ok old) (t : Text) :
    ∃ env', env.writeText p t = .ok env' ∧ env.Rewritten env' p (Utf8.encode t) := by
  obtain ⟨l, hfind⟩ := readBytes_eq_ok.1 h
  have hfile := node?_of_find hfind
  have hset (l' : Location) :
      (env.tree.set l (.file (Utf8.encode t))).node? l' =
        if l' = l then some (.file (Utf8.encode t)) else env.tree.node? l' :=
    FileTree.node?_set (FileTree.ne_nil_of_file hfile) l'
  refine ⟨_, writeText_of_find hfind t, ?_, ?_, rfl, rfl, rfl⟩
  · refine ⟨l, old, leads_of_find hfind, ?_, fun l' hl' => ?_⟩
    · rw [hset, if_pos rfl]
    · rw [hset, if_neg hl']
  · refine readBytes_eq_ok.2 ⟨l, ?_⟩
    rw [find_set hfile, hfind]
    simp [Except.map, FileTree.rewrite]

end Environment

end StyleVars
