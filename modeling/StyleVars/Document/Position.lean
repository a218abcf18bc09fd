import StyleVars.Text.Basic
import StyleVars.Text.Blank
import StyleVars.Text.Decimal

namespace StyleVars

structure Position where
  line : Nat
  column : Nat
  deriving DecidableEq

namespace Position

inductive Fault where
  | noColon (text : Text)
  | notPositive (what : String) (part : Text)
  deriving DecidableEq

def Fault.message : Fault → String
  | noColon text => s!"expected LINE:COLUMN, got `{String.ofList text}`"
  | notPositive what part => s!"{what} must be a positive number, got `{String.ofList part}`"

def readPart (what : String) (part : Text) : Except Fault Nat :=
  match Decimal.read? Decimal.maxIndex part.trim with
  | none | some 0 => .error (.notPositive what part)
  | some n => .ok n

/-- Reads `LINE:COLUMN`, cut at the first colon. Blanks around either number do not count. -/
def read (t : Text) : Except Fault Position :=
  match t.dropWhile (· != ':') with
  | [] => .error (.noColon t)
  | _ :: column => do
    let line ← readPart "line" (t.takeWhile (· != ':'))
    pure ⟨line, ← readPart "column" column⟩

def write (p : Position) : Text := Decimal.write p.line ++ [':'] ++ Decimal.write p.column

/-- The byte offset of a line's start, counting lines from zero, and the text from there on. -/
def dropLines : Nat → Text → Option (Nat × Text)
  | 0, t => some (0, t)
  | _ + 1, [] => none
  | n + 1, c :: rest =>
    (dropLines (if c = '\n' then n else n + 1) rest).map fun (offset, t) =>
      (c.utf8Size + offset, t)

/-- The characters of the first line that have columns. A carriage return at its end has none. -/
def firstLine (t : Text) : Text :=
  let line := t.takeWhile (· != '\n')
  if line.getLast? = some '\r' then line.dropLast else line

/-- The byte offset of a position. The column after the last character is the line's end. -/
def offsetIn? (p : Position) (t : Text) : Option Nat :=
  if p.line = 0 ∨ p.column = 0 then none
  else do
    let (start, rest) ← dropLines (p.line - 1) t
    let line := firstLine rest
    if p.column - 1 ≤ line.length then some (start + Text.byteSize (line.take (p.column - 1)))
    else none

end Position

end StyleVars
