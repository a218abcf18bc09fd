import StyleVars.Text.Basic

namespace StyleVars.Toml

/-- A place in a document, given by all that follows it. -/
abbrev Place := Text

structure Fault where
  line : Nat
  column : Nat
  deriving DecidableEq

namespace Fault

def message (f : Fault) : String :=
  s!"TOML parse error at line {f.line}, column {f.column}"

def lineOf (before : Text) : Nat := before.count '\n' + 1

def lineBefore (before : Text) : Text := (before.reverse.takeWhile (· != '\n')).reverse

/-- Columns count characters, but bytes in front of a character outside ASCII. The end of the
document counts as one column behind its last character. -/
def ofPlace (document : Text) (place : Place) : Fault :=
  let before := document.take (document.length - place.length)
  match place with
  | c :: _ =>
    let line := lineBefore before
    ⟨lineOf before, (if c.utf8Size = 1 then line.length else line.byteSize) + 1⟩
  | [] =>
    if before.isEmpty then ⟨1, 1⟩
    else ⟨lineOf before.dropLast, (lineBefore before.dropLast).length + 2⟩

end Fault

end StyleVars.Toml
