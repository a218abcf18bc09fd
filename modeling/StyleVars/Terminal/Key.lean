import StyleVars.Text.Basic

namespace StyleVars.Terminal

inductive Key where
  | up
  | down
  | tab
  | enter
  | escape
  | backspace
  | char (c : Char)
  deriving DecidableEq

def Key.ofChar (c : Char) : Key :=
  match c with
  | '\n' | '\r' => enter
  | '\t' => tab
  | '\x1b' => escape
  | '\x7f' | '\x08' => backspace
  | c => char c

/-- What a key does to the thing that has the focus: it changes it or ends it with a reply. -/
inductive Pressed (α β : Type) where
  | still (a : α)
  | reply (b : β)

end StyleVars.Terminal
