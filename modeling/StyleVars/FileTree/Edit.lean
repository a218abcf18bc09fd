import StyleVars.Environment

namespace StyleVars

namespace FileTree

def makeFolders (tree : FileTree) (here : Location) : List Bytes → Option (FileTree × Location)
  | [] => some (tree, here)
  | step :: rest =>
    match walkLinks tree true maxLinks here [step] with
    | .ok (l, .folder) => makeFolders tree l rest
    | .error .missing => do
      let l := here ++ [← Name.ofBytes? step]
      if (tree.node? l).isSome then none else makeFolders (tree.set l .folder) l rest
    | _ => none

/-- Writes a file at the end of the steps, through a link where one stands there. -/
def writeAt (tree : FileTree) (here : Location) (step : Bytes) (content : Bytes) :
    Option FileTree := do
  match walkLinks tree true maxLinks here [step] with
  | .ok (l, .file _) => some (tree.set l (.file content))
  | .error .missing => some (tree.set (here ++ [← Name.ofBytes? step]) (.file content))
  | _ => none

def make (tree : FileTree) (start : Location) (steps : List Bytes) (node : Node) :
    Option FileTree := do
  match node with
  | .folder => (·.1) <$> tree.makeFolders start steps
  | .file content =>
    let (tree, here) ← tree.makeFolders start steps.dropLast
    tree.writeAt here (← steps.getLast?) content
  | .link target =>
    let (tree, here) ← tree.makeFolders start steps.dropLast
    some (tree.set (here ++ [← Name.ofBytes? (← steps.getLast?)]) (.link target))

end FileTree

namespace Environment

def make (env : Environment) (p : Path) (node : Node) : Option Environment := do
  let start ← if p.isAbsolute then some [] else env.current
  let tree ← env.tree.make start p.steps node
  some { env with tree }

/-- Removes a file, a link or a whole folder. The current folder is lost with the folder it is in. -/
def remove (env : Environment) (p : Path) : Option Environment :=
  match env.tree.lookup false env.current p with
  | .ok (l, _) =>
    some { env with
      tree := env.tree.remove l
      current := env.current.filter fun folder => !l.isPrefixOf folder }
  | .error _ => none

def enter (env : Environment) (p : Path) : Option Environment :=
  match env.find p with
  | .ok (l, .folder) => some { env with current := some l }
  | _ => none

end Environment

end StyleVars
