import StyleVars.FileTree.Basic

namespace StyleVars

structure ScanOptions where
  /-- The endings that mark a stylesheet's name, with letter case counting. -/
  extensions : List Text := [['.', 'c', 's', 's'], ['.', 's', 'c', 's', 's']]
  followLinks : Bool := false
  skipHidden : Bool := false
  /-- The names of entries that are left out with everything below them. -/
  exclude : List Text := []
  deriving DecidableEq

namespace ScanOptions

def isStylesheet (options : ScanOptions) (fileName : Text) : Bool :=
  options.extensions.any (·.isSuffixOf fileName)

def isExcluded (options : ScanOptions) (name : Text) : Bool :=
  options.exclude.any (· == name)

def prunes (options : ScanOptions) (name : Name) : Bool :=
  options.isExcluded (Utf8.decodeLossy name.bytes) ||
    (options.skipHidden && Path.isHiddenName name.bytes)

def accepts (options : ScanOptions) (name : Name) : Bool :=
  options.isStylesheet (Utf8.decodeLossy name.bytes)

end ScanOptions

end StyleVars
