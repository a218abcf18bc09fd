import StyleVars.Toml.Fault

namespace StyleVars.Toml

abbrev Reader := StateT Text (Except Place)

namespace Reader

variable {α : Type}

def refuseAt (place : Place) : Reader α := throw place

def refuse : Reader α := do refuseAt (← get)

def drop (n : Nat) : Reader Unit := modify (List.drop n)

def takeWhile (p : Char → Bool) : Reader Text := fun t => .ok (t.takeWhile p, t.dropWhile p)

def skip (word : Text) : Reader Bool := fun t =>
  .ok (if word.isPrefixOf t then (true, t.drop word.length) else (false, t))

def expect (word : Text) : Reader Unit := do
  unless ← skip word do refuse

def nextIs (p : Char → Bool) : Reader Bool := fun t => .ok (t.head?.any p, t)

end Reader

/-- The characters beyond control characters, among which the tabulator counts as well. -/
def isPlain (c : Char) : Bool := c = '\t' || (0x20 ≤ c.toNat && c.toNat != 0x7F)

def skipBlanks : Reader Unit := do
  discard (Reader.takeWhile fun c => c = ' ' || c = '\t')

def newline? : Text → Option Text
  | '\n' :: rest => some rest
  | '\r' :: '\n' :: rest => some rest
  | _ => none

def skipNewline : Reader Bool := fun t =>
  .ok (match newline? t with
    | some rest => (true, rest)
    | none => (false, t))

def skipComment : Reader Unit := do
  if ← Reader.nextIs (· = '#') then discard (Reader.takeWhile isPlain)

/-- The end of a line that has been read: blanks, a comment, and the newline or the end of the
document. -/
def endLine : Reader Unit := do
  skipBlanks
  skipComment
  unless ← skipNewline do
    unless (← get).isEmpty do Reader.refuse

def skipLines : Nat → Reader Unit
  | 0 => Reader.refuse
  | n + 1 => do
    skipBlanks
    if ← Reader.nextIs (fun c => c = '#' || c = '\n' || c = '\r') then
      skipComment
      if ← skipNewline then skipLines n
      else
        discard (Reader.skip ['\r'])
        Reader.refuse

def skipAllLines : Reader Unit := do skipLines ((← get).length + 1)

end StyleVars.Toml
