import StyleVars.FileTree.Basic

namespace StyleVars.FileTree

def maxPathLength : Nat := 4095

def maxLinks : Nat := 40

/-- The steps of a look-up. A slash at the end asks for a folder, as a last step to `.` does. -/
def lookupSteps (p : Path) : List Bytes :=
  (p.splitOn Path.slash).filter (!·.isEmpty) ++
    if p.getLast? == some Path.slash then [Path.dot] else []

variable (tree : FileTree) (followLast : Bool)

/-- Goes step by step from a folder, and on by `through` when a link has to be followed. So a `..`
behind a link leads to the folder above the link's target. -/
def walkSteps (through : Location → List Bytes → Except Fault (Location × Node)) :
    Location → List Bytes → Except Fault (Location × Node)
  | here, [] => .ok (here, .folder)
  | here, step :: rest =>
    if step = Path.dot then walkSteps through here rest
    else if step = Path.dotDot then walkSteps through here.dropLast rest
    else if maxNameLength < step.length then .error .nameTooLong
    else
      match Name.ofBytes? step with
      | none => .error .missing
      | some name =>
        match tree.node? (here ++ [name]) with
        | none => .error .missing
        | some .folder => walkSteps through (here ++ [name]) rest
        | some (.file content) =>
          if rest.isEmpty then .ok (here ++ [name], .file content) else .error .throughFile
        | some (.link target) =>
          if rest.isEmpty && !followLast then .ok (here ++ [name], .link target)
          else through (if target.isAbsolute then [] else here) (lookupSteps target ++ rest)

def walkLinks : Nat → Location → List Bytes → Except Fault (Location × Node)
  | 0 => walkSteps tree followLast fun _ _ => .error .tooManyLinks
  | n + 1 => walkSteps tree followLast (walkLinks n)

/-- The node at a path, seen from the current folder. A link at the very end is followed only with
`followLast`. -/
def lookup (current : Option Location) (p : Path) : Except IoError (Location × Node) :=
  if 0 ∈ p then .error .nulInPath
  else if maxPathLength < p.length then .error (.fault .nameTooLong)
  else if p.isEmpty then .error (.fault .missing)
  else
    match if p.isAbsolute then some [] else current with
    | none => .error (.fault .missing)
    | some start => (walkLinks tree followLast maxLinks start (lookupSteps p)).mapError .fault

end StyleVars.FileTree
