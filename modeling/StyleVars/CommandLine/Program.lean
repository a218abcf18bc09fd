import StyleVars.Browser.Screen
import StyleVars.CommandLine.Invocation
import StyleVars.Property.Name
import StyleVars.Session.SnapshotJson

namespace StyleVars.CommandLine

open Terminal (Key)

structure Outcome where
  code : Nat
  output : List Text := []
  notices : List Notice := []
  environment : Environment

namespace Program

def failure (message : String) (causes : List String) : Notice :=
  .error message (if causes.isEmpty then none else some (": ".intercalate causes))

variable (env : Environment)

def runScan (settings : Settings) (root : Path) (output : ScanOutput) : Outcome :=
  let step := settings.session.select env root
  let told := step.events.filterMap Event.notice?
  match step.result, output with
  | .error _, _ => { code := 1, notices := told, environment := env }
  | .ok snapshot, .json =>
    match snapshot.toJson? with
    | some json => { code := 0, output := [json], notices := told, environment := env }
    | none =>
      let notice := failure "path contains invalid UTF-8 characters" []
      { code := 1, notices := told ++ [notice], environment := env }
  | .ok snapshot, .lines term =>
    let view := View.ofSnapshot (some snapshot) term
    { code := 0, output := view.properties, notices := told ++ [.info view.message],
      environment := env }

def notAName (property : Text) : String :=
  s!"`{String.ofList property}` is not a custom property name " ++
    "(expected something like `--primary-color`)"

def runInsert (property : Text) (file : Path) (positions : List Position) : Outcome :=
  if Property.isName property then
    match Target.insert ⟨some file, positions⟩ env property with
    | (.ok _, environment) =>
      let reference := String.ofList (Property.reference property)
      let notice := .success s!"Inserted {reference} at {positions.length} position(s)"
      { code := 0, notices := [notice], environment }
    | (.error e, environment) =>
      { code := 1, notices := [failure e.message e.causes], environment }
  else { code := 1, notices := [failure (notAName property) []], environment := env }

/-- Puts the picked property into the target, or writes its reference where there is no target. -/
def finish (target : Target) (told : List Notice) (property : Text) : Outcome :=
  let reference := Property.reference property
  match target.insert env property with
  | (.ok true, environment) =>
    let notice := .success s!"Inserted {String.ofList reference}"
    { code := 0, notices := told ++ [notice], environment }
  | (.ok false, environment) => { code := 0, output := [reference], notices := told, environment }
  | (.error e, environment) =>
    { code := 1, notices := told ++ [failure e.message e.causes], environment }

/-- The end of a run whose keys have given out. A folder box that cannot be read is left for the
menu, and a menu or a search box that cannot be read ends the run. -/
def giveUp (b : Browser) : Outcome :=
  let b := if b.question = .folder then b.choose env (.error .notATerminal) else b
  let notice := failure IoError.notATerminal.message []
  { code := 1, notices := b.notices ++ [notice], environment := env }

def conclude (target : Target) : Browser.Progress → Outcome
  | .ended b (some property) => finish env target b.notices property
  | .ended b none => { code := 0, notices := b.notices, environment := env }
  | .asking b => giveUp env b

def runBrowse (settings : Settings) (root : Option Path) (target : Target) (keys : List Key) :
    Outcome :=
  let b := Browser.start env settings root
  conclude env target (b.run env (b.replies env keys))

def runCommand (settings : Settings) (keys : List Key) : Command → Outcome
  | .scan root output => runScan env settings root output
  | .insert property file positions => runInsert env property file positions
  | .browse root target => runBrowse env settings root target keys

def invoke (keys : List Key) (i : Invocation) : Outcome :=
  match Settings.load env i.settings with
  | .ok settings => runCommand env settings keys i.command
  | .error e => { code := 1, notices := [failure e.message e.causes], environment := env }

def name : Text := "varbuddy-cli".toList

def release : Text := "0.1.0".toList

def usage : List Text :=
  ["Usage: varbuddy-cli [--config FILE] COMMAND".toList,
    "  scan ROOT [--filter TEXT | --json]".toList,
    "  insert PROPERTY --file FILE --at LINE:COLUMN...".toList,
    "  browse [ROOT] [--file FILE [--at LINE:COLUMN]...]".toList]

def halt : Halt → Outcome
  | .help => { code := 0, output := usage, environment := env }
  | .version => { code := 0, output := [name ++ [' '] ++ release], environment := env }
  | .misuse =>
    { code := 2, notices := [.error "the arguments cannot be understood" (some "try --help")],
      environment := env }

def run (keys : List Key) (args : List Bytes) : Outcome :=
  match read args with
  | .ok i => invoke env keys i
  | .error h => halt env h

end Program

def noticeLines : Notice → List String
  | .success message => [s!"✓ {message}"]
  | .info message => [s!"i {message}"]
  | .warning message => [s!"! {message}"]
  | .error message hint =>
    s!"Error: {message}" :: hint.toList.map fun h => s!"  Hint: {h}"

end StyleVars.CommandLine
