import StyleVars.Text.CaseIgnorable
import StyleVars.Text.Cased
import StyleVars.Text.LowerMap

namespace StyleVars.Text

/-- Whether the next character is a cased letter, passing over those that never count. -/
def beginsCased (t : Text) : Bool :=
  match t.dropWhile isCaseIgnorable with
  | c :: _ => isCased c
  | [] => false

/-- The lower-case form of `c` between `before`, which is read backwards, and `after`. -/
def lowerAt (before : Text) (c : Char) (after : Text) : Text :=
  if c = 'Σ' then
    [if beginsCased before && !beginsCased after then 'ς' else 'σ']
  else if c = 'İ' then ['i', '\u0307']
  else [lowerOne c]

def lowerFrom (before : Text) : Text → Text
  | [] => []
  | c :: after => lowerAt before c after ++ lowerFrom (c :: before) after

def lower (t : Text) : Text := lowerFrom [] t

end StyleVars.Text
