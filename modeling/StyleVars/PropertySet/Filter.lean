import StyleVars.PropertySet.Basic
import StyleVars.Text.Lower

namespace StyleVars

/-- Whether the lower-case name holds the lower-case term. The empty term matches every name. -/
def Property.matchesTerm (term name : Text) : Bool :=
  term.lower.isEmpty || term.lower.occursIn name.lower

def Property.filter (names : List Text) (term : Text) : List Text :=
  names.filter (matchesTerm term)

def PropertySet.filter (s : PropertySet) (term : Text) : List Text :=
  Property.filter s.names term

end StyleVars
