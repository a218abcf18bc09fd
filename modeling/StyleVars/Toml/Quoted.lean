import StyleVars.Toml.Reader

namespace StyleVars.Toml

def isHexDigit (c : Char) : Bool :=
  ('0' ≤ c && c ≤ '9') || ('a' ≤ c && c ≤ 'f') || ('A' ≤ c && c ≤ 'F')

def hexValue (c : Char) : Nat :=
  if c ≤ '9' then c.toNat - '0'.toNat
  else if c ≤ 'F' then c.toNat - 'A'.toNat + 10
  else c.toNat - 'a'.toNat + 10

def hexNumber (digits : Text) : Nat := digits.foldl (fun n c => n * 16 + hexValue c) 0

def readCodePoint (size : Nat) : Reader Char := do
  let digits := ((← get).take size).takeWhile isHexDigit
  let n := hexNumber digits
  if digits.length = size ∧ n.isValidChar then
    Reader.drop size
    pure (Char.ofNat n)
  else Reader.refuse

def readEscape : Reader Char := do
  match ← get with
  | _ :: c :: rest =>
    let known (c : Char) : Reader Char := do
      Reader.drop 2
      pure c
    match c with
    | 'b' => known '\x08'
    | 'f' => known '\x0c'
    | 'n' => known '\n'
    | 'r' => known '\r'
    | 't' => known '\t'
    | '"' => known '"'
    | '\\' => known '\\'
    | 'u' =>
      Reader.drop 2
      readCodePoint 4
    | 'U' =>
      Reader.drop 2
      readCodePoint 8
    | _ => Reader.refuseAt (if c.utf8Size = 1 then rest else c :: rest)
  | _ => Reader.refuse

def isBasicChar (c : Char) : Bool := isPlain c && c != '"' && c != '\\'

def isLiteralChar (c : Char) : Bool := isPlain c && c != '\''

def readBasicLine : Nat → Reader Text
  | 0 => Reader.refuse
  | n + 1 => do
    let plain ← Reader.takeWhile isBasicChar
    if ← Reader.skip ['"'] then pure plain
    else if ← Reader.nextIs (· = '\\') then
      let c ← readEscape
      pure (plain ++ c :: (← readBasicLine n))
    else Reader.refuse

def readLiteralLine : Reader Text := do
  let plain ← Reader.takeWhile isLiteralChar
  Reader.expect ['\'']
  pure plain

/-- The place behind a backslash that ends its line, behind the newlines and blanks that follow. -/
def lineContinuation? (t : Text) : Option Text :=
  match t with
  | '\\' :: rest =>
    (newline? (rest.dropWhile fun c => c = ' ' || c = '\t')).map afterNewlines
  | _ => none
where
  afterNewlines : Text → Text
    | '\r' :: '\n' :: rest => afterNewlines rest
    | c :: rest => if c = ' ' || c = '\t' || c = '\n' then afterNewlines rest else c :: rest
    | [] => []

/-- A run of marks inside a string on several lines, or at its end. Three marks end the string, and
up to two in front of them belong to it. -/
inductive MarkRun where
  | inside (marks : Text)
  | closing (marks : Text)

def readMarks (mark : Char) (continues : Text → Bool) : Reader MarkRun := do
  let place ← get
  let marks := place.takeWhile (· = mark)
  if 3 ≤ marks.length then
    Reader.drop (min marks.length 5)
    pure (.closing (marks.take (min (marks.length - 3) 2)))
  else if continues (place.drop marks.length) then
    Reader.drop marks.length
    pure (.inside marks)
  else Reader.refuse

def continuesBasic : Text → Bool
  | ['\\'] => false
  | '\\' :: _ => true
  | t => t.head?.any isBasicChar || (newline? t).isSome

def continuesLiteral (t : Text) : Bool := t.head?.any isLiteralChar || (newline? t).isSome

def readLines (mark : Char) (isChar : Char → Bool) (continues : Text → Bool)
    (special : Reader Text) : Nat → Reader Text
  | 0 => Reader.refuse
  | n + 1 => do
    let plain ← Reader.takeWhile isChar
    if ← Reader.nextIs (· = mark) then
      match ← readMarks mark continues with
      | .closing marks => pure (plain ++ marks)
      | .inside marks => pure (plain ++ marks ++ (← readLines mark isChar continues special n))
    else if ← skipNewline then
      pure (plain ++ '\n' :: (← readLines mark isChar continues special n))
    else
      let text ← special
      pure (plain ++ text ++ (← readLines mark isChar continues special n))

def readBackslash : Reader Text := do
  match lineContinuation? (← get) with
  | some rest =>
    set rest
    pure []
  | none =>
    if ← Reader.nextIs (· = '\\') then pure [← readEscape] else Reader.refuse

def readBasicLines : Reader Text := do
  discard skipNewline
  readLines '"' isBasicChar continuesBasic readBackslash ((← get).length + 1)

def readLiteralLines : Reader Text := do
  discard skipNewline
  readLines '\'' isLiteralChar continuesLiteral Reader.refuse ((← get).length + 1)

def readQuotedLine : Reader Text := do
  if ← Reader.skip ['"'] then readBasicLine ((← get).length + 1)
  else
    Reader.expect ['\'']
    readLiteralLine

def readString : Reader Text := do
  if ← Reader.skip ['"', '"', '"'] then readBasicLines
  else if ← Reader.skip ['\'', '\'', '\''] then readLiteralLines
  else readQuotedLine

end StyleVars.Toml
