import StyleVars.Text.Basic

namespace StyleVars.Property

def isNameStart (c : Char) : Bool :=
  ('A' ≤ c && c ≤ 'Z') || ('a' ≤ c && c ≤ 'z') || c == '_'

def isNameChar (c : Char) : Bool :=
  isNameStart c || ('0' ≤ c && c ≤ '9') || c == '-'

/-- Two hyphens, a letter or underscore, then letters, digits, underscores and hyphens. Only ASCII
letters and digits count. -/
def isName : Text → Bool
  | '-' :: '-' :: c :: rest => isNameStart c && rest.all isNameChar
  | _ => false

end StyleVars.Property
