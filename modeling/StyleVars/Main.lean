import StyleVars.CommandLine.Program
import StyleVars.Environment.Json

open StyleVars

def pressedKeys (v : Json.Value) : List Terminal.Key :=
  ((Environment.member? "keys" v).getD []).map Terminal.Key.ofChar

def report (before : Environment) (o : CommandLine.Outcome) : IO UInt32 := do
  for line in o.output do
    IO.println (String.ofList line)
  for line in o.notices.flatMap CommandLine.noticeLines do
    IO.eprintln line
  unless (before.changedFiles o.environment).isEmpty do
    IO.println (String.ofList (before.changesJson o.environment))
  return UInt32.ofNat o.code

/-- The surroundings are read from one line of standard input, as JSON that may also hold the keys to
press, and the output ends with the files that have changed. -/
def main (args : List String) : IO UInt32 := do
  let line ← (← IO.getStdin).getLine
  let surroundings := do
    let v ← Json.read line.toList
    some (← Environment.ofValue? v, pressedKeys v)
  match surroundings with
  | some (env, keys) =>
    report env (CommandLine.Program.run env keys (args.map CommandLine.word))
  | none =>
    IO.eprintln "Error: the surroundings cannot be read"
    return 2
