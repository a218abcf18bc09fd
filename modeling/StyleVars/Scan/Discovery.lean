import StyleVars.Environment
import StyleVars.Error
import StyleVars.ScanOptions

namespace StyleVars.Scan

/-- A folder that the search is in, with the place where it really lies. -/
structure Ancestor where
  path : Path
  location : Location

variable (env : Environment) (options : ScanOptions)

/-- What stands behind an entry. A link that is to be followed counts as what it leads to, and may
not lead to one of the folders that the search is in. -/
def followEntry (above : List Ancestor) (child : Path) (node : Node) : Except Error Node :=
  match options.followLinks, node with
  | true, .link _ => do
    let (l, target) ← (env.find child).mapError (.readFolder child)
    match target, above.find? (·.location == l) with
    | .folder, some ancestor => throw (.linkLoop child ancestor.path)
    | _, _ => pure target
  | _, _ => pure node

/-- The stylesheets that one entry of a folder contributes. A link is followed before the options
are asked, so that a broken one fails the search even when it would be pruned. -/
def visitEntry (descend : Path → Except Error (List Path)) (above : List Ancestor) (folder : Path)
    (entry : Name × Node) : Except Error (List Path) := do
  let child := folder.join entry.1.bytes
  let node ← followEntry env options above child entry.2
  if options.prunes entry.1 then pure []
  else
    match node with
    | .folder => descend child
    | .file _ => pure (if options.accepts entry.1 then [child] else [])
    | .link _ => pure []

/-- The stylesheets below a folder, where `room` bounds the bytes by which a path may still grow. -/
def searchFolder : Nat → List Ancestor → Path → Except Error (List Path)
  | 0, _, folder => .error (.readFolder folder (.fault .nameTooLong))
  | room + 1, above, folder => do
    let (l, entries) ← (env.readFolder folder).mapError (.readFolder folder)
    let within := ⟨folder, l⟩ :: above
    let found ← entries.mapM (visitEntry env options (searchFolder room within) within folder)
    pure found.flatten

def discover (root : Path) : Except Error (List Path) := do
  match ← (env.find root).mapError (.readFolder root) with
  | (_, .folder) => searchFolder env options (FileTree.maxPathLength + 1 - root.length) [] root
  | _ => throw (.notAFolder root)

end StyleVars.Scan
