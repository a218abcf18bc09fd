import StyleVars.Document.Buffer
import StyleVars.Document.Position
import StyleVars.Environment

namespace StyleVars

structure Target where
  file : Option Path
  /-- With no positions the start of the file is meant. -/
  positions : List Position

namespace Target

inductive Failure where
  | unreadable (file : Path) (cause : IoError)
  | outside (position : Position) (file : Path)
  | refused (cause : Error)
  | unwritable (file : Path) (cause : IoError)
  deriving DecidableEq

namespace Failure

def message : Failure → String
  | unreadable file _ => s!"cannot read {file.display}"
  | outside position file => s!"{String.ofList position.write} is outside of {file.display}"
  | refused cause => cause.message
  | unwritable file _ => s!"cannot write {file.display}"

def causes : Failure → List String
  | unreadable _ cause | unwritable _ cause => [cause.message]
  | outside _ _ => []
  | refused cause => cause.causes

end Failure

def effectivePositions (t : Target) : List Position :=
  if t.positions.isEmpty then [⟨1, 1⟩] else t.positions

def locate (file : Path) (text : Text) (p : Position) : Except Failure Selection :=
  match p.offsetIn? text with
  | some offset => .ok (.cursor offset)
  | none => .error (.outside p file)

def edit (t : Target) (file : Path) (text property : Text) : Except Failure Text := do
  let cursors ← t.effectivePositions.mapM (locate file text)
  let buffer ← (Buffer.select { text } cursors).mapError .refused
  let buffer ← (buffer.insertReference property).mapError .refused
  pure buffer.text

def newText (t : Target) (env : Environment) (file : Path) (property : Text) :
    Except Failure Text := do
  let text ← (env.readText file).mapError (.unreadable file)
  t.edit file text property

/-- Inserts the reference and saves the file. Without a file there is nothing to do, which the
answer `false` says. Beside the answer stand the surroundings as they are by then. -/
def insert (t : Target) (env : Environment) (property : Text) :
    Except Failure Bool × Environment :=
  match t.file with
  | none => (.ok false, env)
  | some file =>
    match t.newText env file property with
    | .error e => (.error e, env)
    | .ok text =>
      match env.writeText file text with
      | .error cause => (.error (.unwritable file cause), env)
      | .ok env => (.ok true, env)

end Target

end StyleVars
