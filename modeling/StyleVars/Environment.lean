import StyleVars.FileTree.Lookup

namespace StyleVars

structure Environment where
  tree : FileTree
  /-- There is no current folder when it has been removed. -/
  current : Option Location
  home : Option Path
  /-- The folder for configuration that the user has chosen instead of `.config`. -/
  configHome : Option Path

namespace Environment

def currentPath (env : Environment) : Except IoError Path :=
  match env.current with
  | some folder => .ok folder.toPath
  | none => .error (.fault .missing)

def absolute (env : Environment) (p : Path) : Except IoError Path :=
  p.absolute env.home env.currentPath

def find (env : Environment) (p : Path) : Except IoError (Location × Node) :=
  env.tree.lookup true env.current p

def isFile (env : Environment) (p : Path) : Bool :=
  match env.find p with
  | .ok (_, .file _) => true
  | _ => false

def readFolder (env : Environment) (p : Path) : Except IoError (Location × List (Name × Node)) := do
  match ← env.find p with
  | (l, .folder) => pure (l, env.tree.entries l)
  | _ => throw (.fault .throughFile)

def readBytes (env : Environment) (p : Path) : Except IoError Bytes := do
  match ← env.find p with
  | (_, .file content) => pure content
  | _ => throw (.fault .isFolder)

def readText (env : Environment) (p : Path) : Except IoError Text := do
  match Utf8.decode? (← env.readBytes p) with
  | some t => pure t
  | none => throw .notUtf8

def writeText (env : Environment) (p : Path) (t : Text) : Except IoError Environment := do
  match ← env.find p with
  | (l, .file _) => pure { env with tree := env.tree.set l (.file (Utf8.encode t)) }
  | _ => throw (.fault .isFolder)

end Environment

end StyleVars
