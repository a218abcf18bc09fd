import StyleVars.Terminal.Key

namespace StyleVars.Terminal

structure LineEditor where
  text : Text := []

namespace LineEditor

def isControl (c : Char) : Bool := c.toNat < 0x20 || c.toNat == 0x7F

def press (e : LineEditor) : Key → Pressed LineEditor Text
  | .enter => .reply e.text
  | .backspace => .still ⟨e.text.dropLast⟩
  | .char c => .still (if isControl c then e else ⟨e.text ++ [c]⟩)
  | .up | .down | .tab | .escape => .still e

end LineEditor

end StyleVars.Terminal
