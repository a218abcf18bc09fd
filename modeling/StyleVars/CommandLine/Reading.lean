import StyleVars.CommandLine.Switch

namespace StyleVars.CommandLine

inductive Halt where
  | help
  | version
  | misuse
  deriving DecidableEq

structure Reading where
  /-- The switches met so far with their values, last one first. -/
  uses : List (Switch × List Bytes) := []
  /-- Whether a plain argument goes to the last switch. -/
  isOpen : Bool := false
  operands : List Bytes := []
  operandsOnly : Bool := false

namespace Reading

variable (level : Level) (r : Reading)

def isUsed (s : Switch) : Bool := r.uses.any (·.1 == s)

def value? (s : Switch) : Option Bytes := (r.uses.lookup s).bind List.head?

def usesAreSound : List (Switch × List Bytes) → Bool
  | [] => true
  | (s, values) :: rest =>
    (s.arity level).admits values.length && values.all s.accepts &&
      (s.isRepeatable || rest.all (·.1 != s)) && usesAreSound rest

def isSound : Bool :=
  usesAreSound level r.uses && (r.operands.zip level.operands).all fun (value, ok) => ok value

/-- Whether an argument with a hyphen in front can be an operand. That is so for a property that is
still to come. -/
def takesHyphens : Bool := level = .insert && r.operands.isEmpty

def addOperand (value : Bytes) : Except Halt Reading :=
  if r.operands.length < level.operands.length then
    .ok { r with operands := r.operands ++ [value], isOpen := false }
  else .error .misuse

def addPlain (value : Bytes) : Except Halt Reading :=
  match r.isOpen, r.uses with
  | true, (s, values) :: rest =>
    .ok { r with
      uses := (s, values ++ [value]) :: rest
      isOpen := (s.arity level).wants (values.length + 1) }
  | _, _ => r.addOperand level value

def addSwitch (s : Switch) : Except Halt Reading :=
  match s with
  | .help => .error (if r.isSound level then .help else .misuse)
  | .version => .error (if r.isSound level then .version else .misuse)
  | s => .ok { r with uses := (s, []) :: r.uses, isOpen := (s.arity level).wants 0 }

def addAttached (s : Switch) (value : Bytes) : Except Halt Reading :=
  if s.arity level = .zero then .error .misuse
  else .ok { r with uses := (s, [value]) :: r.uses, isOpen := false }

def equalsSign : UInt8 := '='.toUInt8

def hyphen : UInt8 := '-'.toUInt8

def addLong (arg rest : Bytes) : Except Halt Reading :=
  let name := rest.takeWhile (· != equalsSign)
  match level.switches.find? (·.long == name), rest.dropWhile (· != equalsSign) with
  | some s, [] => r.addSwitch level s
  | some s, _ :: value => r.addAttached level s value
  | none, _ => if r.takesHyphens level && isText name then r.addPlain level arg else .error .misuse

def shortSwitch? (letter : UInt8) : Option Switch :=
  level.switches.find? (·.short? == some letter)

/-- Letters that are drawn together. All that stands behind a switch with a value is its value. -/
def addLetters (r : Reading) : Bytes → Except Halt Reading
  | [] => .ok r
  | letter :: rest =>
    match shortSwitch? level letter with
    | none => .error .misuse
    | some s => do
      if s.arity level = .zero || rest.isEmpty then
        let r ← r.addSwitch level s
        addLetters r rest
      else r.addAttached level s (if rest.head? = some equalsSign then rest.drop 1 else rest)

def addShort (arg letters : Bytes) : Except Halt Reading :=
  if r.takesHyphens level && letters.any (fun b => (shortSwitch? level b).isNone) then
    r.addPlain level arg
  else r.addLetters level letters

def add (arg : Bytes) : Except Halt Reading :=
  if r.operandsOnly then r.addOperand level arg
  else
    match arg with
    | a :: b :: rest =>
      if a = hyphen && b = hyphen && rest.isEmpty then
        .ok { r with operandsOnly := true, isOpen := false }
      else if a = hyphen && b = hyphen then r.addLong level arg rest
      else if a = hyphen then r.addShort level arg (b :: rest)
      else r.addPlain level arg
    | _ => r.addPlain level arg

end Reading

end StyleVars.CommandLine
