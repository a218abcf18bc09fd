import StyleVars.Text.Basic

namespace StyleVars.Json

def escapeChar (c : Char) : Text :=
  match c with
  | '"' => ['\\', '"']
  | '\\' => ['\\', '\\']
  | '\x08' => ['\\', 'b']
  | '\x0c' => ['\\', 'f']
  | '\n' => ['\\', 'n']
  | '\r' => ['\\', 'r']
  | '\t' => ['\\', 't']
  | c =>
    if c.toNat < 0x20 then
      ['\\', 'u', '0', '0', Nat.digitChar (c.toNat / 16), Nat.digitChar (c.toNat % 16)]
    else [c]

def quote (t : Text) : Text := ['"'] ++ t.flatMap escapeChar ++ ['"']

def writeList (texts : List Text) : Text :=
  ['['] ++ [','].intercalate (texts.map quote) ++ [']']

def newline (indent : Nat) : Text := '\n' :: List.replicate indent ' '

/-- A list that opens on a line indented by `indent`. The empty list takes no further line. -/
def writeListLines (indent : Nat) : List Text → Text
  | [] => ['[', ']']
  | texts =>
    ['['] ++ [','].intercalate (texts.map fun t => newline (indent + 2) ++ quote t) ++
      newline indent ++ [']']

def writeObjectLines (members : List (Text × Text)) : Text :=
  ['\x7b'] ++
    [','].intercalate (members.map fun (key, value) => newline 2 ++ quote key ++ [':', ' '] ++ value) ++
    newline 0 ++ ['\x7d']

end StyleVars.Json
