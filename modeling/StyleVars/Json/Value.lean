import StyleVars.Text.Basic

namespace StyleVars.Json

inductive Value where
  | null
  | boolean (b : Bool)
  | number (spelling : Text)
  /-- A string has no text when its escapes leave half of a surrogate pair alone. -/
  | string (text : Option Text)
  | array (items : List Value)
  | object (members : List (Option Text × Value))
  deriving Inhabited

namespace Value

def text? : Value → Option Text
  | string text => text
  | _ => none

def texts? : Value → Option (List Text)
  | array items => items.mapM text?
  | _ => none

end Value

end StyleVars.Json
