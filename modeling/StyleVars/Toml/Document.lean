import StyleVars.Toml.DateTime
import StyleVars.Toml.Item

namespace StyleVars.Toml

def depthLimit : Nat := 80

def isBareChar (c : Char) : Bool :=
  ('A' ≤ c && c ≤ 'Z') || ('a' ≤ c && c ≤ 'z') || isDigit c || c = '-' || c = '_'

def startsKey (c : Char) : Bool := isBareChar c || c = '"' || c = '\''

def readSimpleKey : Reader Key := do
  let place ← get
  if ← Reader.nextIs isBareChar then pure ⟨← Reader.takeWhile isBareChar, place⟩
  else pure ⟨← readQuotedLine, place⟩

/-- Fewer than `n` keys with points between them, as the last key and those on the way to it. A
point that no key follows is left alone. -/
def readKeys : Nat → Reader (List Key × Key)
  | 0 => Reader.refuse
  | n + 1 => do
    skipBlanks
    let key ← readSimpleKey
    skipBlanks
    match ← get with
    | '.' :: rest =>
      if (rest.dropWhile fun c => c = ' ' || c = '\t').head?.any startsKey then
        Reader.drop 1
        let (path, last) ← readKeys n
        pure (key :: path, last)
      else pure ([], key)
    | _ => pure ([], key)

def readKey : Reader (List Key × Key) := do
  let place ← get
  let (path, key) ← readKeys (place.length + 1)
  if depthLimit ≤ path.length + 1 then Reader.refuseAt place
  pure (path, key)

def readScalar : Reader Item := do
  let place ← get
  if ← Reader.skip "true".toList then pure (.boolean true)
  else if ← Reader.skip "false".toList then pure (.boolean false)
  else if startsDate place then
    readDateTime
    pure .dateTime
  else if startsTime place then
    readTime
    pure .dateTime
  else if ← Reader.nextIs fun c => c = '"' || c = '\'' then .text <$> readString
  else if ← Reader.nextIs fun c => isDigit c || ['+', '-', 'i', 'n'].contains c then
    readNumber
    pure .number
  else Reader.refuse

structure Assignment where
  path : List Key
  key : Key
  place : Place
  item : Item

section

variable (value : Reader (Place × Item))

def readAssignment : Reader Assignment := do
  let (path, key) ← readKey
  Reader.expect ['=']
  skipBlanks
  let (place, item) ← value
  pure { path, key, place, item }

/-- The fewer than `n` items of an array up to its closing bracket. Behind an item a fault in the
layout is charged to the item. -/
def readItems : Nat → Reader (List (Place × Item))
  | 0 => Reader.refuse
  | n + 1 => do
    skipAllLines
    if ← Reader.skip [']'] then pure []
    else
      let item ← value
      tryCatch skipAllLines fun _ => Reader.refuseAt item.1
      if ← Reader.skip [','] then
        pure (item :: (← readItems n))
      else
        Reader.expect [']']
        pure [item]

def readArray : Reader Item := do
  pure (.array (← readItems value ((← get).length + 1)))

def readAssignments : Nat → Reader (List Assignment)
  | 0 => Reader.refuse
  | n + 1 => do
    let first ← readAssignment value
    skipBlanks
    let place ← get
    if ← Reader.skip [','] then
      skipBlanks
      if ← Reader.nextIs startsKey then
        pure (first :: (← readAssignments n))
      else Reader.refuseAt place
    else pure [first]

def Entries.assign? (entries : Entries) (a : Assignment) : Option Entries :=
  entries.addDotted? a.key a.place a.item a.path

def readInlineTable : Reader Item := do
  let place ← get
  skipBlanks
  let assignments ←
    if ← Reader.nextIs startsKey then readAssignments value (place.length + 1) else pure []
  match assignments.foldlM Entries.assign? [] with
  | some entries =>
    Reader.expect ['\x7d']
    pure (.table .inline entries)
  | none => Reader.refuseAt place

end

def readValue : Nat → Reader (Place × Item)
  | 0 => do
    let place ← get
    pure (place, ← readScalar)
  | n + 1 => do
    let place ← get
    if ← Reader.skip ['['] then pure (place, ← readArray (readValue n))
    else if ← Reader.skip ['\x7b'] then pure (place, ← readInlineTable (readValue n))
    else pure (place, ← readScalar)

structure Document where
  root : Entries := []
  header : List Key := []

namespace Document

def readHeader (d : Document) (opening closing : Text)
    (openTable : Key → Place → Entries → Option Entries) : Reader Document := do
  let place ← get
  Reader.expect opening
  let (path, key) ← readKey
  Reader.expect closing
  endLine
  match d.root.within? (openTable key place) path with
  | some root => pure { root, header := path ++ [key] }
  | none => Reader.refuseAt place

def readEntry (d : Document) : Reader Document := do
  let place ← get
  let a ← readAssignment (readValue (depthLimit - 1))
  endLine
  match d.root.within? (·.assign? a) d.header with
  | some root => pure { d with root }
  | none => Reader.refuseAt place

/-- Reads fewer than `n` lines, which have to be all that is left. -/
def readLines : Nat → Document → Reader Document
  | 0, _ => Reader.refuse
  | n + 1, d => do
    skipBlanks
    match ← get with
    | [] => pure d
    | ['['] => Reader.refuse
    | '[' :: '[' :: _ =>
      let d ← d.readHeader ['[', '['] [']', ']'] Entries.openNext?
      readLines n d
    | '[' :: _ =>
      let d ← d.readHeader ['['] [']'] Entries.openTable?
      readLines n d
    | c :: _ =>
      if ['#', '\n', '\r'].contains c then
        endLine
        readLines n d
      else
        let d ← d.readEntry
        readLines n d

def body (t : Text) : Text := if t.head? == some '\uFEFF' then t.drop 1 else t

def read (t : Text) : Except Place Entries := do
  let (d, _) ← readLines (t.length + 1) {} (body t)
  pure d.root

end Document

end StyleVars.Toml
