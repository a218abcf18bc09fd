import StyleVars.Json.Value

namespace StyleVars.Json

def isSpace (c : Char) : Bool := c = ' ' || c = '\t' || c = '\n' || c = '\r'

def skipSpace (t : Text) : Text := t.dropWhile isSpace

/-- What a string is made of: plain characters and escaped UTF-16 units. -/
inductive StringPart where
  | char (c : Char)
  | utf16 (n : Nat)

def hexDigit? (c : Char) : Option Nat :=
  if '0' ≤ c && c ≤ '9' then some (c.toNat - '0'.toNat)
  else if 'a' ≤ c && c ≤ 'f' then some (c.toNat - 'a'.toNat + 10)
  else if 'A' ≤ c && c ≤ 'F' then some (c.toNat - 'A'.toNat + 10)
  else none

def hexNumber? (digits : List Char) : Option Nat := do
  let digits ← digits.mapM hexDigit?
  some (digits.foldl (fun n d => n * 16 + d) 0)

def shortEscape? : Char → Option Char
  | '"' => some '"'
  | '\\' => some '\\'
  | '/' => some '/'
  | 'b' => some '\x08'
  | 'f' => some '\x0c'
  | 'n' => some '\n'
  | 'r' => some '\r'
  | 't' => some '\t'
  | _ => none

def readParts : Text → Option (List StringPart × Text)
  | [] => none
  | '"' :: rest => some ([], rest)
  | '\\' :: 'u' :: a :: b :: c :: d :: rest => do
    let n ← hexNumber? [a, b, c, d]
    let (parts, rest) ← readParts rest
    some (.utf16 n :: parts, rest)
  | '\\' :: e :: rest => do
    let c ← shortEscape? e
    let (parts, rest) ← readParts rest
    some (.char c :: parts, rest)
  | c :: rest =>
    if c.toNat < 0x20 || c = '\\' then none
    else do
      let (parts, rest) ← readParts rest
      some (.char c :: parts, rest)

def isHighSurrogate (n : Nat) : Bool := 0xD800 ≤ n && n ≤ 0xDBFF

def isLowSurrogate (n : Nat) : Bool := 0xDC00 ≤ n && n ≤ 0xDFFF

def joinParts : List StringPart → Option Text
  | [] => some []
  | .char c :: rest => (c :: ·) <$> joinParts rest
  | .utf16 high :: .utf16 low :: rest =>
    if isHighSurrogate high && isLowSurrogate low then
      (Char.ofNat ((high - 0xD800) * 0x400 + (low - 0xDC00) + 0x10000) :: ·) <$> joinParts rest
    else if isHighSurrogate high || isLowSurrogate high then none
    else (Char.ofNat high :: ·) <$> joinParts (.utf16 low :: rest)
  | .utf16 n :: rest =>
    if isHighSurrogate n || isLowSurrogate n then none
    else (Char.ofNat n :: ·) <$> joinParts rest

def readString (t : Text) : Option (Option Text × Text) := do
  let (parts, rest) ← readParts t
  some (joinParts parts, rest)

def isDigit (c : Char) : Bool := '0' ≤ c && c ≤ '9'

def readDigits (t : Text) : Option (Text × Text) :=
  if t.head?.any isDigit then some (t.takeWhile isDigit, t.dropWhile isDigit) else none

def readIf (present : Char → Bool) (read : Text → Option (Text × Text)) (t : Text) :
    Option (Text × Text) :=
  match t with
  | c :: rest =>
    if present c then do
      let (part, rest) ← read rest
      some (c :: part, rest)
    else some ([], t)
  | [] => some ([], t)

def readExponent (t : Text) : Option (Text × Text) := do
  match t with
  | '+' :: rest | '-' :: rest =>
    let (digits, rest') ← readDigits rest
    some (t.take 1 ++ digits, rest')
  | _ => readDigits t

def readInteger (t : Text) : Option (Text × Text) :=
  match t with
  | '0' :: rest => some (['0'], rest)
  | _ => readDigits t

def readUnsigned (t : Text) : Option (Text × Text) := do
  let (integer, rest) ← readInteger t
  let (fraction, rest) ← readIf (· = '.') readDigits rest
  let (exponent, rest) ← readIf (fun c => c = 'e' || c = 'E') readExponent rest
  some (integer ++ fraction ++ exponent, rest)

def readNumber (t : Text) : Option (Value × Text) := do
  let (sign, rest) := match t with
    | '-' :: rest => (['-'], rest)
    | _ => ([], t)
  let (spelling, rest) ← readUnsigned rest
  some (.number (sign ++ spelling), rest)

def readItems {α : Type} (item : Text → Option (α × Text)) (close : Char) :
    Nat → Text → Option (List α × Text)
  | 0, _ => none
  | n + 1, t => do
    let (first, rest) ← item t
    match skipSpace rest with
    | ',' :: rest =>
      let (more, rest) ← readItems item close n rest
      some (first :: more, rest)
    | c :: rest => if c = close then some ([first], rest) else none
    | [] => none

def readList {α : Type} (item : Text → Option (α × Text)) (close : Char) (n : Nat) (t : Text) :
    Option (List α × Text) :=
  match skipSpace t with
  | [] => none
  | c :: rest => if c = close then some ([], rest) else readItems item close n t

def readMember (value : Text → Option (Value × Text)) (t : Text) :
    Option ((Option Text × Value) × Text) := do
  match skipSpace t with
  | '"' :: rest =>
    let (key, rest) ← readString rest
    match skipSpace rest with
    | ':' :: rest =>
      let (v, rest) ← value rest
      some ((key, v), rest)
    | _ => none
  | _ => none

/-- Reads a value that is nested no deeper, and lists no more items, than the number says. -/
def readValue : Nat → Text → Option (Value × Text)
  | 0, _ => none
  | n + 1, t =>
    match skipSpace t with
    | '"' :: rest => (fun (text, rest) => (.string text, rest)) <$> readString rest
    | '[' :: rest =>
      (fun (items, rest) => (.array items, rest)) <$> readList (readValue n) ']' (n + 1) rest
    | '{' :: rest =>
      (fun (members, rest) => (.object members, rest)) <$>
        readList (readMember (readValue n)) '}' (n + 1) rest
    | 'n' :: 'u' :: 'l' :: 'l' :: rest => some (.null, rest)
    | 't' :: 'r' :: 'u' :: 'e' :: rest => some (.boolean true, rest)
    | 'f' :: 'a' :: 'l' :: 's' :: 'e' :: rest => some (.boolean false, rest)
    | rest => readNumber rest

/-- The value that a whole text spells. A text has more characters than nested brackets or items. -/
def read (t : Text) : Option Value := do
  let (v, rest) ← readValue (t.length + 1) t
  if (skipSpace rest).isEmpty then some v else none

end StyleVars.Json
