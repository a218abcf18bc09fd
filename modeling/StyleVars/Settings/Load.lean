import StyleVars.Environment
import StyleVars.Error
import StyleVars.Settings.Toml

namespace StyleVars.Settings

def applicationFolder : Path := Path.ofText "varbuddy".toList

def fileName : Path := Path.ofText "config.toml".toList

/-- The folder that configuration is kept in. A relative folder in place of `.config` does not
count. -/
def configFolder? (env : Environment) : Option Path :=
  match env.configHome.filter Path.isAbsolute with
  | some folder => some folder
  | none => env.home.map (·.join (Path.ofText ".config".toList))

def defaultPath? (env : Environment) : Option Path :=
  (configFolder? env).map fun folder => (folder.join applicationFolder).join fileName

def read (env : Environment) (file : Path) : Except Error Settings := do
  let text ← (env.readText file).mapError (.readSettings file)
  (ofToml text).mapError (.invalidSettings file)

def load (env : Environment) (named : Option Path) : Except Error Settings :=
  match named, (defaultPath? env).filter env.isFile with
  | some file, _ | none, some file => read env file
  | none, none => .ok {}

end StyleVars.Settings
