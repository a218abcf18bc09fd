import StyleVars.Environment
import StyleVars.Proofs.Attempt
import StyleVars.Proofs.FileTree.Leads

namespace StyleVars.Environment

def start? (env : Environment) (p : Path) : Option Location :=
  if p.isAbsolute then some [] else env.current

/-- The path leads to a node, however long it is and through however many links it goes. Only with
`followLast` is a link at its end followed. -/
def Leads (env : Environment) (followLast : Bool) (p : Path) (l : Location) (node : Node) : Prop :=
  p ≠ [] ∧ ∃ start, env.start? p = some start ∧
    env.tree.Leads followLast start (FileTree.lookupSteps p) l node

variable {env : Environment} {followLast : Bool} {p : Path} {l : Location} {node : Node}

theorem walkLinks_of_lookup {r : Location × Node}
    (h : env.tree.lookup followLast env.current p = .ok r) :
    (p ≠ [] ∧ 0 ∉ p ∧ p.length ≤ FileTree.maxPathLength) ∧ ∃ start, env.start? p = some start ∧
      env.tree.walkLinks followLast FileTree.maxLinks start (FileTree.lookupSteps p) = .ok r := by
  unfold FileTree.lookup at h
  split at h
  · cases h
  split at h
  · cases h
  split at h
  · cases h
  case isFalse hnul hlen hempty =>
    refine ⟨⟨by simpa using hempty, hnul, Nat.le_of_not_lt hlen⟩, ?_⟩
    unfold start?
    split at h
    case h_1 => cases h
    case h_2 start hstart => exact ⟨start, hstart, Attempt.mapError_eq_ok.1 h⟩

theorem leads_of_lookup (h : env.tree.lookup followLast env.current p = .ok (l, node)) :
    env.Leads followLast p l node := by
  obtain ⟨⟨hp, -⟩, start, hstart, h⟩ := walkLinks_of_lookup h
  exact ⟨hp, start, hstart, FileTree.leads_of_walkLinks h⟩

theorem leads_of_find (h : env.find p = .ok (l, node)) : env.Leads true p l node :=
  leads_of_lookup h

theorem readFolder_too_long (hnul : 0 ∉ p) (hlen : FileTree.maxPathLength < p.length) :
    env.readFolder p = .error (.fault .nameTooLong) := by
  unfold readFolder find FileTree.lookup
  rw [if_neg hnul, if_pos hlen]
  rfl

theorem readFolder_eq_ok {entries : List (Name × Node)} :
    env.readFolder p = .ok (l, entries) ↔
      env.find p = .ok (l, .folder) ∧ entries = env.tree.entries l := by
  unfold readFolder
  rw [Attempt.bind_eq_ok]
  constructor
  · rintro ⟨⟨l', node⟩, hfind, h⟩
    cases node with
    | folder =>
      cases h
      exact ⟨hfind, rfl⟩
    | file content => cases h
    | link target => cases h
  · rintro ⟨hfind, rfl⟩
    exact ⟨_, hfind, rfl⟩

namespace Leads

theorem unique {l₁ l₂ : Location} {node₁ node₂ : Node} (h₁ : env.Leads followLast p l₁ node₁)
    (h₂ : env.Leads followLast p l₂ node₂) : l₁ = l₂ ∧ node₁ = node₂ := by
  obtain ⟨-, start, hstart, h₁⟩ := h₁
  obtain ⟨-, start', hstart', h₂⟩ := h₂
  obtain rfl := Option.some.inj (hstart.symm.trans hstart')
  exact h₁.unique h₂

theorem follow (hnode : ∀ target, node ≠ .link target) (h : env.Leads false p l node) :
    env.Leads true p l node := by
  obtain ⟨hp, start, hstart, h⟩ := h
  exact ⟨hp, start, hstart, h.follow hnode⟩

theorem lookupSteps_iff {tree : FileTree} {start : Location} :
    tree.Leads true start (FileTree.lookupSteps p) l .folder ↔
      tree.Leads true start p.parts l .folder := by
  obtain h | h := Path.lookupSteps_cases p
  · rw [h]
  · rw [h]
    constructor
    · intro hl
      obtain ⟨m, hm, hdot⟩ := hl.split (by simp)
      obtain ⟨rfl, -⟩ := FileTree.Leads.here_iff.1 hdot.of_dot
      exact hm
    · intro hl
      exact .append (Or.inl rfl) hl (.dot .here)

theorem join_iff (hp : p ≠ []) {n : Name} :
    env.Leads followLast (p.join n.bytes) l node ↔
      ∃ m, env.Leads true p m .folder ∧ env.tree.Leads followLast m [n.bytes] l node := by
  have hstart : env.start? (p.join n.bytes) = env.start? p := by
    rw [start?, start?, Path.isAbsolute_join hp]
  unfold Environment.Leads
  rw [hstart, Path.lookupSteps_join hp]
  constructor
  · rintro ⟨-, start, hs, h⟩
    obtain ⟨m, hm, h⟩ := h.split (by simp)
    exact ⟨m, ⟨hp, start, hs, lookupSteps_iff.2 hm⟩, h⟩
  · rintro ⟨m, ⟨-, start, hs, hm⟩, h⟩
    exact ⟨Path.join_ne_nil hp n, start, hs, (lookupSteps_iff.1 hm).append (Or.inr (by simp)) h⟩

theorem join_iff_of_folder (hfolder : env.Leads true p l .folder) {n : Name} {l' : Location} :
    env.Leads followLast (p.join n.bytes) l' node ↔
      env.tree.Leads followLast l [n.bytes] l' node := by
  rw [join_iff hfolder.1]
  constructor
  · rintro ⟨m, hm, h⟩
    obtain ⟨rfl, -⟩ := hm.unique hfolder
    exact h
  · intro h
    exact ⟨l, hfolder, h⟩

theorem stands_iff_of_folder (hfolder : env.Leads true p l .folder) {n : Name} {l' : Location} :
    env.Leads false (p.join n.bytes) l' node ↔
      l' = l ++ [n] ∧ env.tree.node? (l ++ [n]) = some node := by
  rw [join_iff_of_folder hfolder, FileTree.Leads.entry_iff]

end Leads

end StyleVars.Environment
