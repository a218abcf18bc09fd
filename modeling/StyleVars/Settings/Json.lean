import StyleVars.Json.Value
import StyleVars.Settings.Field

namespace StyleVars.ScanOptions

def Setting.ofJson : Json.Value → Setting
  | .boolean b => .boolean b
  | v =>
    match v.texts? with
    | some items => .texts items
    | none => .other

def assignMember (known : ScanOptions × List Field) (member : Option Text × Json.Value) :
    Option (ScanOptions × List Field) := do
  let field ← Field.ofKey? (← member.1)
  if known.2.contains field then none
  else some (← field.assign? known.1 (.ofJson member.2), field :: known.2)

def ofJson? : Json.Value → Option ScanOptions
  | .object members => (·.1) <$> members.foldlM assignMember ({}, [])
  | .array items =>
    if items.length ≤ Field.all.length then
      (Field.all.zip items).foldlM (fun options (field, v) => field.assign? options (.ofJson v)) {}
    else none
  | _ => none

end StyleVars.ScanOptions
