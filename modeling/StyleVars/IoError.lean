namespace StyleVars

inductive IoKind where
  | notFound
  | permissionDenied
  | notADirectory
  | isADirectory
  | invalidFilename
  | filesystemLoop
  | invalidInput
  | invalidData
  | interrupted
  | unexpectedEof
  | notConnected
  | other
  deriving DecidableEq

/-- What a path runs into on its way through a file tree. -/
inductive Fault where
  | missing
  | throughFile
  | isFolder
  | nameTooLong
  | tooManyLinks
  deriving DecidableEq

inductive IoError where
  | fault (f : Fault)
  | nulInPath
  | notUtf8
  | notATerminal
  | ofKind (k : IoKind)
  deriving DecidableEq

namespace IoKind

def description : IoKind → String
  | notFound => "entity not found"
  | permissionDenied => "permission denied"
  | notADirectory => "not a directory"
  | isADirectory => "is a directory"
  | invalidFilename => "invalid filename"
  | filesystemLoop => "filesystem loop or indirection limit (e.g. symlink loop)"
  | invalidInput => "invalid input parameter"
  | invalidData => "invalid data"
  | interrupted => "operation interrupted"
  | unexpectedEof => "unexpected end of file"
  | notConnected => "not connected"
  | other => "other error"

end IoKind

namespace Fault

def kind : Fault → IoKind
  | missing => .notFound
  | throughFile => .notADirectory
  | isFolder => .isADirectory
  | nameTooLong => .invalidFilename
  | tooManyLinks => .filesystemLoop

def message : Fault → String
  | missing => "No such file or directory (os error 2)"
  | throughFile => "Not a directory (os error 20)"
  | isFolder => "Is a directory (os error 21)"
  | nameTooLong => "File name too long (os error 36)"
  | tooManyLinks => "Too many levels of symbolic links (os error 40)"

end Fault

namespace IoError

def kind : IoError → IoKind
  | fault f => f.kind
  | nulInPath => .invalidInput
  | notUtf8 => .invalidData
  | notATerminal => .notConnected
  | ofKind k => k

def message : IoError → String
  | fault f => f.message
  | nulInPath => "file name contained an unexpected NUL byte"
  | notUtf8 => "stream did not contain valid UTF-8"
  | notATerminal => "Not a terminal"
  | ofKind k => k.description

end IoError

end StyleVars
