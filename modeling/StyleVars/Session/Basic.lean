import StyleVars.Scan.Collect
import StyleVars.Session.Event

namespace StyleVars

structure Session where
  options : ScanOptions := {}
  interface : Interface := .visible
  published : Option Snapshot := none
  listeners : List Nat := []

structure Session.Step (α : Type) where
  result : α
  session : Session
  events : List Event

namespace Session

variable (env : Environment) (s : Session)

def root (s : Session) : Option Path := s.published.map Snapshot.root

def subscribe (s : Session) : Step Nat where
  result := s.listeners.length
  session := { s with listeners := s.listeners ++ [s.listeners.length] }
  events := []

def failureNotice (root : Path) (e : Error) : Notice :=
  .error s!"Failed to scan {root.display}: {e.message}" e.hint?

def fail (root : Path) (e : Error) : Step (Except Error Snapshot) where
  result := .error e
  session := s
  events := s.interface.report (failureNotice root e)

def publish (snapshot : Snapshot) : Step (Except Error Snapshot) where
  result := .ok snapshot
  session := { s with published := some snapshot }
  events := s.listeners.map (.updated · snapshot)

def scanAndPublish (root : Path) : Step (Except Error Snapshot) :=
  match Scan.scan env s.options root with
  | .ok properties => s.publish ⟨root, properties⟩
  | .error e => s.fail root e

def select (path : Path) : Step (Except Error Snapshot) :=
  match env.absolute path with
  | .ok root => s.scanAndPublish env root
  | .error cause => s.fail path (.io cause)

def Step.some {α : Type} (step : Step (Except Error α)) : Step (Except Error (Option α)) :=
  ⟨step.result.map Option.some, step.session, step.events⟩

def refresh : Step (Except Error (Option Snapshot)) :=
  match s.root with
  | none => ⟨.ok none, s, []⟩
  | some root => (s.scanAndPublish env root).some

/-- Scans the folder that the user picks. `picked` is what the interface answers when asked. -/
def choose (picked : Except IoError (Option Path)) : Step (Except Error (Option Snapshot)) :=
  let asked := s.interface.askFolder "Select CSS Folder"
  match s.interface, picked with
  | .headless, _ | _, .ok none => ⟨.ok none, s, asked⟩
  | _, .error cause => ⟨.error (.io cause), s, asked⟩
  | _, .ok (some path) =>
    let step := (s.select env path).some
    { step with events := asked ++ step.events }

def filter (s : Session) (term : Text) : List Text :=
  match s.published with
  | some snapshot => snapshot.properties.filter term
  | none => []

def view (s : Session) (term : Text) : View := .ofSnapshot s.published term

end Session

end StyleVars
