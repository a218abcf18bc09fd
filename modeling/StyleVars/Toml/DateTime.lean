import StyleVars.Toml.Number

namespace StyleVars.Toml

def readTwoDigits (low high : Nat) : Reader Nat := do
  let digits := ((← get).take 2).takeWhile isDigit
  let n := Nat.ofDigitChars 10 digits 0
  if digits.length = 2 ∧ low ≤ n ∧ n ≤ high then
    Reader.drop 2
    pure n
  else Reader.refuse

def isLeapYear (year : Nat) : Bool :=
  year % 4 == 0 && (year % 100 != 0 || year % 400 == 0)

def daysOf (year month : Nat) : Nat :=
  if month = 2 then if isLeapYear year then 29 else 28
  else if [4, 6, 9, 11].contains month then 30
  else 31

def startsDate (t : Text) : Bool :=
  4 ≤ (t.takeWhile isDigit).length && t[4]? == some '-'

def startsTime (t : Text) : Bool :=
  2 ≤ (t.takeWhile isDigit).length && t[2]? == some ':' &&
    Nat.ofDigitChars 10 (t.take 2) 0 ≤ 23

def readDate : Reader Unit := do
  let year := Nat.ofDigitChars 10 ((← get).take 4) 0
  Reader.drop 5
  let month ← readTwoDigits 1 12
  Reader.expect ['-']
  let place ← get
  let day ← readTwoDigits 1 31
  if daysOf year month < day then Reader.refuseAt place

def readHourMinute : Reader Unit := do
  discard (readTwoDigits 0 23)
  Reader.expect [':']
  discard (readTwoDigits 0 59)

def readTime : Reader Unit := do
  readHourMinute
  Reader.expect [':']
  discard (readTwoDigits 0 60)
  match ← get with
  | '.' :: c :: _ =>
    if isDigit c then
      Reader.drop 1
      discard (Reader.takeWhile isDigit)
  | _ => pure ()

def readOffset : Reader Unit := do
  if ← Reader.nextIs fun c => c = 'Z' || c = 'z' then Reader.drop 1
  else if ← Reader.nextIs fun c => c = '+' || c = '-' then
    Reader.drop 1
    readHourMinute

def readDateTime : Reader Unit := do
  readDate
  match ← get with
  | c :: rest =>
    if (c = 'T' || c = 't' || c = ' ') && startsTime rest then
      Reader.drop 1
      readTime
      readOffset
  | [] => pure ()

end StyleVars.Toml
