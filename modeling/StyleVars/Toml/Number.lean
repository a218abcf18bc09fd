import StyleVars.Toml.Quoted

namespace StyleVars.Toml

def isDigit (c : Char) : Bool := '0' ≤ c && c ≤ '9'

/-- More digits, each of them with at most one underscore in front. -/
def moreDigits (isDigit : Char → Bool) : Text → Except Place (Text × Text)
  | '_' :: c :: rest =>
    if isDigit c then (moreDigits isDigit rest).map fun (digits, rest) => (c :: digits, rest)
    else .error (c :: rest)
  | ['_'] => .error []
  | c :: rest =>
    if isDigit c then (moreDigits isDigit rest).map fun (digits, rest) => (c :: digits, rest)
    else .ok ([], c :: rest)
  | [] => .ok ([], [])

def readDigits (isDigit : Char → Bool) : Reader Text := do
  if ← Reader.nextIs isDigit then moreDigits isDigit else Reader.refuse

def readDecimal : Reader Text := do
  if ← Reader.skip ['0'] then pure ['0'] else readDigits isDigit

def readSign : Reader Bool := do
  let negative ← Reader.skip ['-']
  if !negative then discard (Reader.skip ['+'])
  pure negative

def readFraction : Reader (Option Text) := do
  if ← Reader.skip ['.'] then some <$> readDigits isDigit else pure none

def readExponent : Reader (Option Int) := do
  if ← Reader.nextIs fun c => c = 'e' || c = 'E' then
    Reader.drop 1
    let negative ← readSign
    let n : Int := Nat.ofDigitChars 10 (← readDigits isDigit) 0
    pure (some (if negative then -n else n))
  else pure none

/-- The least number whose nearest double is infinite. -/
def doubleLimit : Nat := Nat.pow 2 1024 - Nat.pow 2 970

/-- Whether `m * 10 ^ scale` is beyond the doubles. The number of digits settles all cases but those
near the limit, which has 309 digits. -/
def overflows (m : Nat) (scale : Int) : Bool :=
  let size := (Nat.toDigits 10 m).length + scale
  if m = 0 || size < 309 then false
  else if 309 < size then true
  else doubleLimit * Nat.pow 10 (-scale).toNat ≤ m * Nat.pow 10 scale.toNat

def fitsSigned (negative : Bool) (n : Nat) : Bool :=
  if negative then n ≤ 0x8000000000000000 else n < 0x8000000000000000

def readRadix (place : Place) (base : Nat) (isDigit : Char → Bool) : Reader Unit := do
  Reader.drop 2
  let digits ← readDigits isDigit
  unless fitsSigned false (digits.foldl (fun n c => n * base + hexValue c) 0) do
    Reader.refuseAt place

/-- Passes over a number, which is read for its spelling alone. An integer has to fit into 64 bits
with a sign, and a float may not be so large that its nearest double is the positive infinity. -/
def readNumber : Reader Unit := do
  let place ← get
  match place with
  | '0' :: 'x' :: _ => readRadix place 16 isHexDigit
  | '0' :: 'o' :: _ => readRadix place 8 fun c => '0' ≤ c && c ≤ '7'
  | '0' :: 'b' :: _ => readRadix place 2 fun c => c = '0' || c = '1'
  | _ =>
    let negative ← readSign
    if ← Reader.skip ['i', 'n', 'f'] then pure ()
    else if ← Reader.skip ['n', 'a', 'n'] then pure ()
    else
      let digits ← readDecimal
      let fraction ← readFraction
      let exponent ← readExponent
      let accepted :=
        match fraction, exponent with
        | none, none => fitsSigned negative (Nat.ofDigitChars 10 digits 0)
        | _, _ =>
          let tail := fraction.getD []
          negative ||
            !overflows (Nat.ofDigitChars 10 (digits ++ tail) 0) (exponent.getD 0 - tail.length)
      unless accepted do Reader.refuseAt place

end StyleVars.Toml
