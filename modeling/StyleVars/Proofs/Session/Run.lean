import StyleVars.Document.Buffer
import StyleVars.Session.Basic

namespace StyleVars

namespace Session

inductive Operation where
  | subscribe
  | select (path : Path)
  | choose (picked : Except IoError (Option Path))
  | refresh
  | filter (term : Text)
  | insert (focused : Option Buffer) (property : Text)

inductive Answer where
  | registered (listener : Nat)
  | scanned (result : Except Error (Option Snapshot))
  | listed (names : List Text)
  | inserted (result : Except Error (Bool × Option Buffer))

def Answer.snapshot? : Answer → Option Snapshot
  | scanned (.ok snapshot) => snapshot
  | scanned (.error _) | registered _ | listed _ | inserted _ => none

def Step.map {α β : Type} (f : α → β) (step : Step α) : Step β :=
  ⟨f step.result, step.session, step.events⟩

def perform (env : Environment) (s : Session) : Operation → Step Answer
  | .subscribe => s.subscribe.map .registered
  | .select path => (s.select env path).some.map .scanned
  | .choose picked => (s.choose env picked).map .scanned
  | .refresh => (s.refresh env).map .scanned
  | .filter term => ⟨.listed (s.filter term), s, []⟩
  | .insert focused property => ⟨.inserted (insertIntoFocused focused property), s, []⟩

def run (s : Session) : List (Environment × Operation) → List (Step Answer)
  | [] => []
  | (env, op) :: rest => s.perform env op :: run (s.perform env op).session rest

def after (s : Session) : List (Environment × Operation) → Session
  | [] => s
  | (env, op) :: rest => after (s.perform env op).session rest

def returned (s : Session) (ops : List (Environment × Operation)) : List Snapshot :=
  (s.run ops).filterMap (·.result.snapshot?)

end Session

def Event.updateFor? (listener : Nat) : Event → Option Snapshot
  | .updated l snapshot => if l = listener then some snapshot else none
  | .shown _ | .folderAsked _ => none

/-- The snapshots that one listener has been told of during a row of operations, first one first. -/
def Session.received (s : Session) (listener : Nat) (ops : List (Environment × Operation)) :
    List Snapshot :=
  ((s.run ops).flatMap Step.events).filterMap (Event.updateFor? listener)

end StyleVars
