import StyleVars.Session.Basic

namespace StyleVars.Session

/-- How far a selection has come. -/
inductive Task where
  | named (path : Path)
  | waiting (root : Path)
  | scanning (root : Path)
  | publishing (snapshot : Snapshot)
  | telling (snapshot : Snapshot)
  | leaving (result : Except Error Snapshot)
  | done (result : Except Error Snapshot)

namespace Task

def holdsLock : Task → Bool
  | scanning _ | publishing _ | telling _ | leaving _ => true
  | named _ | waiting _ | done _ => false

def result? : Task → Option (Except Error Snapshot)
  | done r => some r
  | _ => none

/-- The next step of a selection. There is none when it is done, or when it waits for the other. -/
def step? (env : Environment) (s : Session) (isFree : Bool) : Task → Option (Step Task)
  | named path =>
    match env.absolute path with
    | .ok root => some ⟨waiting root, s, []⟩
    | .error cause => some ⟨done (.error (.io cause)), s, (s.fail path (.io cause)).events⟩
  | waiting root => if isFree then some ⟨scanning root, s, []⟩ else none
  | scanning root =>
    match Scan.scan env s.options root with
    | .ok properties => some ⟨publishing ⟨root, properties⟩, s, []⟩
    | .error e => some ⟨leaving (.error e), s, (s.fail root e).events⟩
  | publishing snapshot => some ⟨telling snapshot, (s.publish snapshot).session, []⟩
  | telling snapshot => some ⟨leaving (.ok snapshot), s, (s.publish snapshot).events⟩
  | leaving r => some ⟨done r, s, []⟩
  | done _ => none

end Task

inductive Turn where
  | first
  | second
  deriving DecidableEq

structure Pair where
  session : Session
  first : Task
  second : Task
  events : List Event := []

namespace Pair

variable (env : Environment)

def move (p : Pair) : Turn → Pair
  | .first =>
    match p.first.step? env p.session (!p.second.holdsLock) with
    | some step =>
      { p with first := step.result, session := step.session, events := p.events ++ step.events }
    | none => p
  | .second =>
    match p.second.step? env p.session (!p.first.holdsLock) with
    | some step =>
      { p with second := step.result, session := step.session, events := p.events ++ step.events }
    | none => p

def run (p : Pair) (turns : List Turn) : Pair := turns.foldl (move env) p

end Pair

def pair (s : Session) (first second : Path) : Pair :=
  { session := s, first := .named first, second := .named second }

/-- The turns of two selections that are started together on one thread: the second one begins as
soon as the first one reads its first folder. -/
def joinedTurns : List Turn :=
  [.first, .first, .second] ++ List.replicate 4 .first ++ List.replicate 5 .second

def join (env : Environment) (s : Session) (first second : Path) : Pair :=
  (s.pair first second).run env joinedTurns

end StyleVars.Session
