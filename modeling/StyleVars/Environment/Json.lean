import StyleVars.FileTree.Edit
import StyleVars.Json.Printer
import StyleVars.Json.Reader

namespace StyleVars.Environment

open Json (Value)

def member? (key : String) : Value → Option Text
  | .object members => members.lookup (some key.toList) >>= Value.text?
  | _ => none

def path? (key : String) (v : Value) : Option Path := (member? key v).map Path.ofText

def nodeOf (v : Value) : Node :=
  match member? "text" v, path? "link" v with
  | some t, _ => .file (Utf8.encode t)
  | none, some target => .link target
  | none, none => .folder

def addEntry? (env : Environment) (v : Value) : Option Environment := do
  env.make (← path? "path" v) (nodeOf v)

def entriesOf : Value → List Value
  | .object members =>
    match members.lookup (some "tree".toList) with
    | some (.array items) => items
    | _ => []
  | _ => []

def ofValue? (v : Value) : Option Environment := do
  let start : Environment :=
    { tree := .empty, current := some [], home := path? "home" v, configHome := path? "config" v }
  let env ← (entriesOf v).foldlM addEntry? start
  match path? "folder" v with
  | some folder => env.enter folder
  | none => some env

def changedFiles (before after : Environment) : List (Path × Bytes) :=
  after.tree.nodes.filterMap fun (l, node) =>
    match node with
    | .file content =>
      if before.tree.node? l = some node then none else some (l.toPath, content)
    | _ => none

def changesJson (before after : Environment) : Text :=
  Json.writeObjectLines <| (changedFiles before after).map fun (path, content) =>
    (Utf8.decodeLossy path, Json.quote (Utf8.decodeLossy content))

end StyleVars.Environment
