import StyleVars.Path.Absolute

namespace StyleVars

def maxNameLength : Nat := 255

structure Name where
  bytes : Bytes
  ne_nil : bytes ≠ []
  ne_dot : bytes ≠ Path.dot
  ne_dotDot : bytes ≠ Path.dotDot
  slash_notMem : Path.slash ∉ bytes
  nul_notMem : 0 ∉ bytes
  length_le : bytes.length ≤ maxNameLength
  deriving DecidableEq

def Name.ofBytes? (b : Bytes) : Option Name :=
  if h : b ≠ [] ∧ b ≠ Path.dot ∧ b ≠ Path.dotDot ∧ Path.slash ∉ b ∧ 0 ∉ b ∧
      b.length ≤ maxNameLength then
    some ⟨b, h.1, h.2.1, h.2.2.1, h.2.2.2.1, h.2.2.2.2.1, h.2.2.2.2.2⟩
  else none

abbrev Location := List Name

def Location.toPath (l : Location) : Path := Path.ofSteps (l.map Name.bytes)

inductive Node where
  | folder
  | file (content : Bytes)
  | link (target : Path)
  deriving DecidableEq

/-- A finite map from locations to nodes. The top folder is always there and takes no node. -/
structure FileTree where
  nodes : List (Location × Node)
  nodup : (nodes.map Prod.fst).Nodup := by decide

namespace FileTree

def empty : FileTree := { nodes := [] }

def node? (tree : FileTree) : Location → Option Node
  | [] => some .folder
  | l => tree.nodes.lookup l

def entryOf? (folder : Location) (l : Location) : Option Name :=
  match l.getLast? with
  | some name => if l = folder ++ [name] then some name else none
  | none => none

def entries (tree : FileTree) (folder : Location) : List (Name × Node) :=
  tree.nodes.filterMap fun (l, node) => (entryOf? folder l).map (·, node)

/-- Puts a node at a location, in place of what was there. -/
def set (tree : FileTree) (l : Location) (node : Node) : FileTree where
  nodes := tree.nodes.filter (fun e => e.1 != l) ++ [(l, node)]
  nodup := by
    have hsub := (List.filter_sublist (p := fun e => e.1 != l) (l := tree.nodes)).map Prod.fst
    simp only [List.map_append, List.map_cons, List.map_nil]
    refine List.nodup_append.2 ⟨hsub.nodup tree.nodup, by simp, ?_⟩
    rintro a ha b hb rfl
    obtain ⟨e, he, rfl⟩ := List.mem_map.1 ha
    simp_all

def remove (tree : FileTree) (l : Location) : FileTree where
  nodes := tree.nodes.filter fun e => !l.isPrefixOf e.1
  nodup := (List.Sublist.map _ List.filter_sublist).nodup tree.nodup

end FileTree

end StyleVars
