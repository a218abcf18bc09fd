import StyleVars.Terminal.Key

namespace StyleVars.Terminal

structure Menu where
  size : Nat
  highlight : Nat := 0

namespace Menu

def pageSize : Nat := 198

def pages (m : Menu) : Nat := (m.size + pageSize - 1) / pageSize

/-- Puts the highlight at the top of a page, if there are several. -/
def toPage (m : Menu) (page : Nat) : Menu :=
  if m.pages ≤ 1 then m else { m with highlight := page % m.pages * pageSize }

def next (m : Menu) : Menu := { m with highlight := (m.highlight + 1) % m.size }

def previous (m : Menu) : Menu := { m with highlight := (m.highlight + m.size - 1) % m.size }

def press (m : Menu) : Key → Pressed Menu (Option Nat)
  | .down | .tab | .char 'j' => .still m.next
  | .up | .char 'k' => .still m.previous
  | .char 'h' => .still (m.toPage (m.highlight / pageSize + m.pages - 1))
  | .char 'l' => .still (m.toPage (m.highlight / pageSize + 1))
  | .escape | .char 'q' => .reply none
  | .enter | .char ' ' => .reply (some m.highlight)
  | .backspace | .char _ => .still m

end Menu

end StyleVars.Terminal
