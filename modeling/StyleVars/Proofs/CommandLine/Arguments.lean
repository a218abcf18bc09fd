import StyleVars.CommandLine.Invocation
import StyleVars.Proofs.Attempt
import StyleVars.Proofs.Text.Utf8

namespace StyleVars.CommandLine

namespace Reading

variable {level : Level} {r r' : Reading} {arg : Bytes}

theorem operands_of_addSwitch {s : Switch} (h : r.addSwitch level s = .ok r') :
    r'.operands = r.operands := by
  cases s with
  | help | version => cases h
  | settings | filter | json | file | position =>
    cases h
    rfl

theorem operands_of_addAttached {s : Switch} {value : Bytes}
    (h : r.addAttached level s value = .ok r') : r'.operands = r.operands := by
  unfold addAttached at h
  split at h
  · cases h
  · cases h
    rfl

theorem operands_of_addLetters {letters : Bytes} (h : r.addLetters level letters = .ok r') :
    r'.operands = r.operands := by
  induction letters generalizing r with
  | nil =>
    cases h
    rfl
  | cons letter rest ih =>
    rw [addLetters] at h
    cases hs : shortSwitch? level letter with
    | none =>
      rw [hs] at h
      cases h
    | some s =>
      rw [hs] at h
      simp only at h
      split at h
      · obtain ⟨middle, hmiddle, h⟩ := Attempt.bind_eq_ok.1 h
        exact (ih h).trans (operands_of_addSwitch hmiddle)
      · exact operands_of_addAttached h

theorem operands_of_addLong {rest : Bytes} (hlevel : r.takesHyphens level = false)
    (h : r.addLong level arg rest = .ok r') : r'.operands = r.operands := by
  simp only [addLong, hlevel, Bool.false_and, Bool.false_eq_true, if_false] at h
  split at h
  · exact operands_of_addSwitch h
  · exact operands_of_addAttached h
  · cases h

theorem operands_of_addShort {letters : Bytes} (hlevel : r.takesHyphens level = false)
    (h : r.addShort level arg letters = .ok r') : r'.operands = r.operands := by
  simp only [addShort, hlevel, Bool.false_and, Bool.false_eq_true, if_false] at h
  exact operands_of_addLetters h

theorem operands_of_add_hyphen {b : UInt8} {rest : Bytes} (hlevel : r.takesHyphens level = false)
    (hopen : r.operandsOnly = false) (h : r.add level (hyphen :: b :: rest) = .ok r') :
    r'.operands = r.operands := by
  unfold add at h
  rw [hopen] at h
  simp only [Bool.false_eq_true, if_false, decide_true, Bool.true_and, if_true] at h
  split at h
  · cases h
    rfl
  · split at h
    · exact operands_of_addLong hlevel h
    · exact operands_of_addShort hlevel h

theorem add_scan_eq_ok (h : ({} : Reading).add .scan arg = .ok r) (hr : r.operands ≠ []) :
    r = { operands := [arg] } := by
  match arg with
  | [] =>
    cases h
    rfl
  | [a] =>
    cases h
    rfl
  | a :: b :: rest =>
    by_cases ha : a = hyphen
    · subst ha
      exact absurd (operands_of_add_hyphen rfl rfl h) hr
    · have hplain : ({} : Reading).add .scan (a :: b :: rest) =
          .ok { operands := [a :: b :: rest] } := by
        simp [add, ha, addPlain, addOperand, Level.operands]
      exact Except.ok.inj (h.symm.trans hplain)

end Reading

def naming : Option Path → List Bytes
  | none => []
  | some file => [word "--config=" ++ file]

def scanArguments (settings : Option Path) (root : Path) (more : List Bytes) : List Bytes :=
  naming settings ++ word "scan" :: root :: more

def front : Option Path → Reading
  | none => {}
  | some file => { uses := [(.settings, [file])] }

theorem read_scanArguments (settings : Option Path) (root : Path) (more : List Bytes) :
    read (scanArguments settings root more) =
      ((root :: more).foldlM (Reading.add .scan) {} >>= fun back =>
        match (front settings).invocation? .scan back with
        | some i => pure i
        | none => throw .misuse) := by
  cases settings <;> rfl

variable {settings : Option Path} {root : Path}

structure CanScan (settings : Option Path) (root : Path) : Prop where
  front_isSound : (front settings).isSound .program = true
  isPath_root : isPath root = true
  add_root : ({} : Reading).add .scan root = .ok { operands := [root] }

theorem canScan_of_read {i : Invocation} (h : read (scanArguments settings root []) = .ok i) :
    CanScan settings root := by
  rw [read_scanArguments] at h
  obtain ⟨back, hback, h⟩ := Attempt.bind_eq_ok.1 h
  have hadd : ({} : Reading).add .scan root = .ok back := by simpa using hback
  cases hinvocation : (front settings).invocation? .scan back with
  | none =>
    rw [hinvocation] at h
    cases h
  | some i' =>
    unfold Reading.invocation? at hinvocation
    split at hinvocation
    case isTrue hsound =>
      obtain ⟨hback, hfront⟩ := Bool.and_eq_true_iff.1 hsound
      obtain ⟨command, hcommand, -⟩ := Option.bind_eq_some_iff.1 hinvocation
      obtain ⟨root', hroot', -⟩ := Option.bind_eq_some_iff.1 hcommand
      have hoperands : back.operands ≠ [] := by
        intro hnil
        rw [hnil] at hroot'
        cases hroot'
      obtain rfl := Reading.add_scan_eq_ok hadd hoperands
      exact ⟨hfront, by simpa [Reading.isSound, Reading.usesAreSound, Level.operands] using hback,
        hadd⟩
    case isFalse => cases hinvocation

theorem CanScan.read_eq (h : CanScan settings root) {more : List Bytes}
    {uses : List (Switch × List Bytes)} {command : Command}
    (hmore : more.foldlM (Reading.add .scan) { operands := [root] } =
      .ok { operands := [root], uses })
    (huses : Reading.usesAreSound .scan uses = true) (hnone : uses.lookup .settings = none)
    (hcommand : Reading.command? .scan { operands := [root], uses } = some command) :
    read (scanArguments settings root more) = .ok ⟨settings, command⟩ := by
  have hback : Reading.isSound .scan { operands := [root], uses } = true := by
    simp [Reading.isSound, huses, Level.operands, h.isPath_root]
  have hsettings : (Reading.value? { operands := [root], uses } .settings).or
      ((front settings).value? .settings) = settings := by
    simp only [Reading.value?, hnone]
    cases settings <;> rfl
  have hinvocation : (front settings).invocation? .scan { operands := [root], uses } =
      some ⟨settings, command⟩ := by
    simp [Reading.invocation?, hback, h.front_isSound, hcommand, hsettings]
  rw [read_scanArguments, List.foldlM_cons, h.add_root]
  refine Attempt.bind_eq_ok.2 ⟨{ operands := [root], uses }, hmore, ?_⟩
  rw [hinvocation]
  rfl

theorem CanScan.reads (h : CanScan settings root) :
    read (scanArguments settings root []) = .ok ⟨settings, .scan root (.lines [])⟩ ∧
    (∀ term : Text, read (scanArguments settings root [word "--filter=" ++ Utf8.encode term]) =
      .ok ⟨settings, .scan root (.lines term)⟩) ∧
    read (scanArguments settings root [word "--json"]) = .ok ⟨settings, .scan root .json⟩ := by
  refine ⟨h.read_eq rfl rfl rfl rfl, fun term => ?_, h.read_eq rfl rfl rfl rfl⟩
  have hterm := Utf8.decode?_encode term
  have hmore : [word "--filter=" ++ Utf8.encode term].foldlM (Reading.add .scan)
      { operands := [root] } =
        .ok { operands := [root], uses := [(.filter, [Utf8.encode term])] } := rfl
  refine h.read_eq hmore ?_ rfl ?_
  · simp [Reading.usesAreSound, Switch.arity, Arity.admits, Switch.accepts, isText, hterm]
  · simp [Reading.command?, Reading.isUsed, Reading.value?, hterm]

end StyleVars.CommandLine
