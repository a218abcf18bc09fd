import StyleVars.Document.Position
import StyleVars.Path.Basic

namespace StyleVars.CommandLine

/-- The part of a command line whose switches are in force: what stands before the name of a command,
or what stands behind it. -/
inductive Level where
  | program
  | scan
  | insert
  | browse
  deriving DecidableEq

inductive Switch where
  | settings
  | filter
  | json
  | file
  | position
  | help
  | version
  deriving DecidableEq

inductive Arity where
  | zero
  | one
  | many
  deriving DecidableEq

namespace Arity

def wants : Arity → Nat → Bool
  | zero, _ => false
  | one, n => n == 0
  | many, _ => true

def admits : Arity → Nat → Bool
  | zero, n => n == 0
  | one, n => n == 1
  | many, n => 0 < n

end Arity

def word (s : String) : Bytes := Utf8.encode s.toList

def readPositions? (value : Bytes) : Option (List Position) :=
  (value.splitOn ','.toUInt8).mapM fun part => do
    match Position.read (← Utf8.decode? part) with
    | .ok p => some p
    | .error _ => none

def isPath (value : Bytes) : Bool := !value.isEmpty

def isText (value : Bytes) : Bool := (Utf8.decode? value).isSome

namespace Switch

def long : Switch → Bytes
  | settings => word "config"
  | filter => word "filter"
  | json => word "json"
  | file => word "file"
  | position => word "at"
  | help => word "help"
  | version => word "version"

def short? : Switch → Option UInt8
  | settings => some 'c'.toUInt8
  | filter => some 'f'.toUInt8
  | help => some 'h'.toUInt8
  | version => some 'V'.toUInt8
  | json | file | position => none

/-- One use of the switch for positions takes all that follow, but only where it is needed. -/
def arity (level : Level) : Switch → Arity
  | json | help | version => .zero
  | position => if level = .insert then .many else .one
  | settings | filter | file => .one

def isRepeatable (s : Switch) : Bool := s = position

def accepts : Switch → Bytes → Bool
  | settings | file => isPath
  | filter => isText
  | position => fun value => (readPositions? value).isSome
  | json | help | version => fun _ => true

end Switch

namespace Level

def ofName? (name : Bytes) : Option Level :=
  if name = word "scan" then some scan
  else if name = word "insert" then some insert
  else if name = word "browse" then some browse
  else none

def switches : Level → List Switch
  | program => [.settings, .help, .version]
  | scan => [.settings, .filter, .json, .help]
  | insert | browse => [.settings, .file, .position, .help]

def operands : Level → List (Bytes → Bool)
  | program => []
  | scan | browse => [isPath]
  | insert => [isText]

end Level

end StyleVars.CommandLine
