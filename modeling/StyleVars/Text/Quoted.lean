import StyleVars.Text.GraphemeExtend
import StyleVars.Text.Unprintable
import StyleVars.Text.Utf8

namespace StyleVars.Quoted

def hexByte (b : UInt8) : Text :=
  [Nat.digitChar (b.toNat / 16), Nat.digitChar (b.toNat % 16)].map Char.toUpper

def escapeChar (c : Char) : Text :=
  if c = '"' ∨ c = '\\' then ['\\', c]
  else if c = '\x00' then ['\\', '0']
  else if c = '\t' then ['\\', 't']
  else if c = '\r' then ['\\', 'r']
  else if c = '\n' then ['\\', 'n']
  else if isGraphemeExtend c || isUnprintable c then
    ['\\', 'u', '\x7b'] ++ Nat.toDigits 16 c.toNat ++ ['\x7d']
  else [c]

def escapePiece : Utf8.Piece → Text
  | .char c => escapeChar c
  | .broken bytes => bytes.flatMap fun b => ['\\', 'x'] ++ hexByte b

/-- A byte string as messages show it. What cannot be seen is escaped: characters without a shape by
their code point, and bytes that are no character by their value. -/
def quote (bytes : Bytes) : Text := ['"'] ++ (Utf8.pieces bytes).flatMap escapePiece ++ ['"']

end StyleVars.Quoted
