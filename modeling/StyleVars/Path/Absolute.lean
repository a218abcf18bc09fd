import StyleVars.IoError
import StyleVars.Path.Basic

namespace StyleVars.Path

/-- Replaces a first name `~` by the home folder. Any other path stays as it is. -/
def expandUser (home : Option Path) (p : Path) : Path :=
  match p.splitOn slash, home with
  | first :: _, some h => if first = tilde then (p.steps.drop 1).foldl join h else p
  | _, _ => p

/-- One step of a walk by spelling; the names passed so far come last one first. -/
def walkStep (above : List Bytes) (step : Bytes) : List Bytes :=
  if step = dotDot then above.drop 1 else step :: above

def ofSteps : List Bytes → Path
  | [] => [slash]
  | steps => steps.flatMap (slash :: ·)

/-- The absolute path without `.`, `..`, empty names or a slash at its end. -/
def clean (p : Path) : Path := ofSteps (p.steps.foldl walkStep []).reverse

def absolute (home : Option Path) (current : Except IoError Path) (p : Path) :
    Except IoError Path := do
  let q := p.expandUser home
  if q.isAbsolute then pure q.clean
  else pure (join (← current) q).clean

end StyleVars.Path
