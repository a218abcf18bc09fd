import StyleVars.Text.Utf8

namespace StyleVars

abbrev Path := Bytes

namespace Path

def slash : UInt8 := '/'.toUInt8

def dot : Bytes := ['.'.toUInt8]

def dotDot : Bytes := ['.'.toUInt8, '.'.toUInt8]

def tilde : Bytes := ['~'.toUInt8]

def ofText (t : Text) : Path := Utf8.encode t

def display (p : Path) : String := String.ofList (Utf8.decodeLossy p)

def isAbsolute (p : Path) : Bool := p.head? == some slash

/-- The names, `..` included, that the path goes through. Empty names and `.` lead nowhere. -/
def steps (p : Path) : List Bytes :=
  (p.splitOn slash).filter fun s => !s.isEmpty && s != dot

/-- Appends `q` behind a slash. An absolute `q` stands for itself. -/
def join (p q : Path) : Path :=
  if isAbsolute q || p.isEmpty then q
  else if p.getLast? == some slash then p ++ q
  else p ++ slash :: q

def fileName? (p : Path) : Option Bytes :=
  p.steps.getLast?.filter (· != dotDot)

def isHiddenName (name : Bytes) : Bool := name.head? == some '.'.toUInt8

def isHidden (p : Path) : Bool := p.fileName?.any isHiddenName

end Path

end StyleVars
