import StyleVars.ScanOptions

namespace StyleVars.ScanOptions

inductive Setting where
  | texts (items : List Text)
  | boolean (b : Bool)
  | other

/-- The fields in the order in which a document may list their values alone. -/
inductive Field where
  | extensions
  | followLinks
  | skipHidden
  | exclude
  deriving DecidableEq

namespace Field

def all : List Field := [extensions, followLinks, skipHidden, exclude]

def key : Field → Text
  | extensions => "extensions".toList
  | followLinks => "follow_symlinks".toList
  | skipHidden => "skip_hidden".toList
  | exclude => "exclude".toList

def ofKey? (t : Text) : Option Field := all.find? (·.key == t)

def assign? (options : ScanOptions) : Field → Setting → Option ScanOptions
  | extensions, .texts items => some { options with extensions := items }
  | followLinks, .boolean b => some { options with followLinks := b }
  | skipHidden, .boolean b => some { options with skipHidden := b }
  | exclude, .texts items => some { options with exclude := items }
  | _, _ => none

end Field

end StyleVars.ScanOptions
