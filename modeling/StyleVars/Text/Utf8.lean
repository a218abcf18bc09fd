import StyleVars.Text.Basic

namespace StyleVars.Utf8

inductive Piece where
  | char (c : Char)
  | broken (bytes : Bytes)

/-- The bytes of a character that is not complete yet, and the finished pieces, last one first. -/
structure Decoder where
  pending : Bytes := []
  finished : List Piece := []

/-- How many bytes a character with this first byte has, and `0` when none begins with it. -/
def sizeOf (lead : UInt8) : Nat :=
  if lead < 0x80 then 1
  else if 0xC2 ≤ lead ∧ lead ≤ 0xDF then 2
  else if 0xE0 ≤ lead ∧ lead ≤ 0xEF then 3
  else if 0xF0 ≤ lead ∧ lead ≤ 0xF4 then 4
  else 0

/-- Whether some character begins with `pending` and then has the byte `b`. The second byte is held
to narrower bounds behind four of the first bytes, which keeps out long forms, surrogates and code
points above U+10FFFF. -/
def continues (pending : Bytes) (b : UInt8) : Bool :=
  match pending with
  | [0xE0] => 0xA0 ≤ b && b ≤ 0xBF
  | [0xED] => 0x80 ≤ b && b ≤ 0x9F
  | [0xF0] => 0x90 ≤ b && b ≤ 0xBF
  | [0xF4] => 0x80 ≤ b && b ≤ 0x8F
  | _ => 0x80 ≤ b && b ≤ 0xBF

def codePoint : Bytes → Nat
  | [] => 0
  | [b] => b.toNat
  | lead :: more =>
    more.foldl (fun n b => n * 64 + b.toNat % 64) (lead.toNat % Nat.pow 2 (6 - more.length))

def Decoder.begin (finished : List Piece) (b : UInt8) : Decoder :=
  match sizeOf b with
  | 0 => ⟨[], .broken [b] :: finished⟩
  | 1 => ⟨[], .char (Char.ofNat b.toNat) :: finished⟩
  | _ => ⟨[b], finished⟩

def Decoder.push (d : Decoder) (b : UInt8) : Decoder :=
  match d.pending with
  | [] => .begin d.finished b
  | lead :: more =>
    if continues (lead :: more) b then
      if more.length + 2 = sizeOf lead then
        ⟨[], .char (Char.ofNat (codePoint (lead :: more ++ [b]))) :: d.finished⟩
      else ⟨lead :: more ++ [b], d.finished⟩
    else .begin (.broken (lead :: more) :: d.finished) b

def Decoder.pieces (d : Decoder) : List Piece :=
  match d.pending with
  | [] => d.finished.reverse
  | bytes => (.broken bytes :: d.finished).reverse

def pieces (bytes : Bytes) : List Piece := (bytes.foldl Decoder.push {}).pieces

def Piece.char? : Piece → Option Char
  | .char c => some c
  | .broken _ => none

def Piece.lossyChar : Piece → Char
  | .char c => c
  | .broken _ => '\uFFFD'

def decode? (bytes : Bytes) : Option Text := (pieces bytes).mapM Piece.char?

def decodeLossy (bytes : Bytes) : Text := (pieces bytes).map Piece.lossyChar

def encode (t : Text) : Bytes := t.flatMap String.utf8EncodeChar

end StyleVars.Utf8
