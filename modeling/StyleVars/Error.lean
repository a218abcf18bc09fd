import StyleVars.Path.Absolute
import StyleVars.Text.Quoted
import StyleVars.Toml.Fault

namespace StyleVars

inductive Error where
  | readFolder (path : Path) (cause : IoError)
  | readStylesheet (path : Path) (cause : IoError)
  | notAFolder (path : Path)
  | linkLoop (path ancestor : Path)
  | invalidPosition (offset : Nat)
  | readSettings (path : Path) (cause : IoError)
  | invalidSettings (path : Path) (cause : Toml.Fault)
  | io (cause : IoError)
  | other (reason : String)
  deriving DecidableEq

namespace Error

def quoted (path : Path) : String := String.ofList (Quoted.quote path)

def message : Error → String
  | readFolder path _ => s!"Cannot read directory {quoted path}"
  | readStylesheet path _ => s!"Cannot read stylesheet {quoted path}"
  | notAFolder path => s!"{quoted path} is not a directory"
  | linkLoop path ancestor =>
    s!"Symbolic link {quoted path} points back to its ancestor {quoted ancestor}"
  | invalidPosition offset =>
    s!"Offset {offset} is not a valid insertion point in the document"
  | readSettings path _ => s!"Cannot read configuration file {quoted path}"
  | invalidSettings path _ => s!"Invalid configuration in {quoted path}"
  | io cause => cause.message
  | other reason => reason

def hint? : Error → Option String
  | readFolder _ cause =>
    if cause.kind = .notFound then
      some "the folder may have been moved or deleted; select it again"
    else some "check the folder permissions"
  | readStylesheet _ cause =>
    if cause.kind = .invalidData then some "stylesheets must be UTF-8 encoded" else none
  | readSettings _ _ => some "pass an existing UTF-8 TOML file with --config"
  | linkLoop _ _ => some "disable `follow_symlinks` or remove the looping link"
  | notAFolder _ | invalidPosition _ | invalidSettings _ _ | io _ | other _ => none

def causes : Error → List String
  | readFolder _ cause | readStylesheet _ cause | readSettings _ cause => [cause.message]
  | invalidSettings _ cause => [cause.message]
  | notAFolder _ | linkLoop _ _ | invalidPosition _ | io _ | other _ => []

end Error

end StyleVars
