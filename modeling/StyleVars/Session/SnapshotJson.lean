import StyleVars.Json.Printer
import StyleVars.Json.Reader
import StyleVars.Session.Snapshot

namespace StyleVars

namespace PropertySet

def toJson (s : PropertySet) : Text := Json.writeList s.names

def ofValue? (v : Json.Value) : Option PropertySet := ofList <$> v.texts?

def ofJson? (t : Text) : Option PropertySet := Json.read t >>= ofValue?

end PropertySet

namespace Snapshot

def rootKey : Text := "root".toList

def propertiesKey : Text := "properties".toList

/-- There is no JSON for a root that is not UTF-8. -/
def toJson? (s : Snapshot) : Option Text := do
  let root ← Utf8.decode? s.root
  some (Json.writeObjectLines
    [(rootKey, Json.quote root), (propertiesKey, Json.writeListLines 2 s.properties.names)])

def member? (key : Text) (members : List (Option Text × Json.Value)) : Option Json.Value :=
  match members.filter (·.1 == some key) with
  | [(_, v)] => some v
  | _ => none

def ofValues? (root properties : Json.Value) : Option Snapshot := do
  some ⟨Path.ofText (← root.text?), ← PropertySet.ofValue? properties⟩

/-- Both members have to be there once. Members of another name do not matter, but every name has to
be a text. -/
def ofValue? : Json.Value → Option Snapshot
  | .object members => do
    if members.all (·.1.isSome) then
      ofValues? (← member? rootKey members) (← member? propertiesKey members)
    else none
  | .array [root, properties] => ofValues? root properties
  | _ => none

def ofJson? (t : Text) : Option Snapshot := Json.read t >>= ofValue?

end Snapshot

end StyleVars
