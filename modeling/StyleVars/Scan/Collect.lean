import StyleVars.Property.Token
import StyleVars.PropertySet.Basic
import StyleVars.Scan.Discovery

namespace StyleVars.Scan

variable (env : Environment)

def readProperties (stylesheet : Path) : Except Error (List Text) := do
  let text ← (env.readText stylesheet).mapError (.readStylesheet stylesheet)
  pure (Property.tokens text)

def collect (stylesheets : List Path) : Except Error PropertySet := do
  let found ← stylesheets.mapM (readProperties env)
  pure (.ofList found.flatten)

def scan (options : ScanOptions) (root : Path) : Except Error PropertySet := do
  collect env (← discover env options root)

end StyleVars.Scan
