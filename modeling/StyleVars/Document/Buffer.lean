import StyleVars.Error
import StyleVars.Property.Reference

namespace StyleVars

/-- A stretch of a document. The active end is the one that the user is typing at. -/
structure Selection where
  anchor : Nat
  active : Nat
  deriving DecidableEq

namespace Selection

def cursor (offset : Nat) : Selection := ⟨offset, offset⟩

def isEmpty (s : Selection) : Bool := s.anchor == s.active

def ends (s : Selection) : List Nat := [s.anchor, s.active]

def map (f : Nat → Nat) (s : Selection) : Selection := ⟨f s.anchor, f s.active⟩

end Selection

structure Buffer where
  text : Text
  selections : List Selection := []
  deriving DecidableEq

namespace Buffer

def check (text : Text) : List Nat → Except Error Unit
  | [] => .ok ()
  | offset :: rest =>
    if text.isBoundary offset then check text rest else .error (.invalidPosition offset)

def select (b : Buffer) (selections : List Selection) : Except Error Buffer := do
  check b.text (selections.flatMap Selection.ends)
  pure { b with selections }

def insertAt (inserted : Text) (text : Text) (offset : Nat) : Text :=
  match text.splitAtByte? offset with
  | some (before, after) => before ++ inserted ++ after
  | none => text

/-- Where an offset of the old text lies after the edit. It moves behind every insertion at or
before it. -/
def shift (offsets : List Nat) (inserted : Text) (offset : Nat) : Nat :=
  offset + inserted.byteSize * offsets.countP (· ≤ offset)

/-- Inserts a text at every offset, as often as the offset is listed. All offsets are meant in the
old text, so the last one is served first. -/
def insertAll (b : Buffer) (offsets : List Nat) (inserted : Text) : Except Error Buffer := do
  check b.text offsets
  let lastFirst := offsets.mergeSort fun a b => decide (b ≤ a)
  pure {
    text := lastFirst.foldl (insertAt inserted) b.text
    selections := b.selections.map (Selection.map (shift offsets inserted)) }

def insertReference (b : Buffer) (property : Text) : Except Error Buffer :=
  b.insertAll (b.selections.map Selection.active) (Property.reference property)

end Buffer

def insertIntoFocused (focused : Option Buffer) (property : Text) :
    Except Error (Bool × Option Buffer) :=
  match focused with
  | none => .ok (false, none)
  | some b => (b.insertReference property).map fun b => (true, some b)

end StyleVars
