import StyleVars.CommandLine.Reading
import StyleVars.Document.Target

namespace StyleVars.CommandLine

inductive ScanOutput where
  | lines (term : Text)
  | json
  deriving DecidableEq

inductive Command where
  | scan (root : Path) (output : ScanOutput)
  | insert (property : Text) (file : Path) (positions : List Position)
  | browse (root : Option Path) (target : Target)

structure Invocation where
  settings : Option Path
  command : Command

namespace Reading

def positions (r : Reading) : List Position :=
  r.uses.reverse.flatMap fun (s, values) =>
    if s = .position then values.flatMap fun value => (readPositions? value).getD [] else []

/-- The command of a level, if all that it needs is there and nothing that it cannot have. -/
def command? (level : Level) (r : Reading) : Option Command :=
  match level with
  | .program => none
  | .scan => do
    let root ← r.operands.head?
    if r.isUsed .json then
      if r.isUsed .filter then none else some (.scan root .json)
    else
      let term ← match r.value? .filter with
        | some value => Utf8.decode? value
        | none => some []
      some (.scan root (.lines term))
  | .insert => do
    let property ← Utf8.decode? (← r.operands.head?)
    let file ← r.value? .file
    if r.positions.isEmpty then none else some (.insert property file r.positions)
  | .browse =>
    if !r.positions.isEmpty && !r.isUsed .file then none
    else some (.browse r.operands.head? ⟨r.value? .file, r.positions⟩)

def invocation? (front : Reading) (level : Level) (back : Reading) : Option Invocation :=
  if back.isSound level && front.isSound .program then do
    let command ← back.command? level
    some ⟨(back.value? .settings).or (front.value? .settings), command⟩
  else none

end Reading

def isHelpTopic (name : Bytes) : Bool := name = word "help" || (Level.ofName? name).isSome

def readFrom (front : Reading) : List Bytes → Except Halt Invocation
  | [] => .error .misuse
  | arg :: rest =>
    if front.operandsOnly || front.isOpen then do readFrom (← front.add .program arg) rest
    else
      match Level.ofName? arg with
      | some level => do
        let back ← rest.foldlM (Reading.add level) {}
        match front.invocation? level back with
        | some i => pure i
        | none => throw .misuse
      | none =>
        if arg = word "help" then
          .error (if rest.length ≤ 1 && rest.all isHelpTopic then .help else .misuse)
        else do readFrom (← front.add .program arg) rest

def read (args : List Bytes) : Except Halt Invocation := readFrom {} args

end StyleVars.CommandLine
