import StyleVars.Path.Basic
import StyleVars.PropertySet.Filter

namespace StyleVars

structure Snapshot where
  root : Path
  properties : PropertySet
  deriving DecidableEq

inductive View where
  | noRoot
  | empty (root : Path)
  | noMatches (root : Path) (total : Nat)
  | showing (root : Path) (properties : List Text) (total : Nat)
  deriving DecidableEq

namespace View

def ofSnapshot (snapshot : Option Snapshot) (term : Text) : View :=
  match snapshot with
  | none => .noRoot
  | some s =>
    if s.properties.isEmpty then .empty s.root
    else
      match s.properties.filter term with
      | [] => .noMatches s.root s.properties.size
      | found => .showing s.root found s.properties.size

def properties : View → List Text
  | showing _ found _ => found
  | noRoot | empty _ | noMatches _ _ => []

def root? : View → Option Path
  | noRoot => none
  | empty root | noMatches root _ | showing root _ _ => some root

def total? : View → Option Nat
  | noRoot | empty _ => none
  | noMatches _ total | showing _ _ total => some total

def message : View → String
  | noRoot => "Select a folder to scan for CSS custom properties"
  | empty root => s!"No custom properties found in {root.display}"
  | noMatches _ _ => "No matching properties found"
  | showing _ found total => s!"Showing {found.length} of {total} properties"

end View

end StyleVars
