import StyleVars.Proofs.CommandLine.ExitCode
import StyleVars.Proofs.Property.Places
import StyleVars.Proofs.Text.Utf8

namespace StyleVars

open Property (isName tokens)

variable {env : Environment} {file : Path} {text property : Text} {positions : List Position}

namespace Target

variable {t : Target} {e : Failure}

theorem edit_eq_error (h : t.edit file text property = .error e) : ∃ p, e = .outside p file := by
  cases hcursors : t.effectivePositions.mapM (locate file text) with
  | ok cursors => cases h.symm.trans (edit_of_located property hcursors)
  | error e' =>
    obtain hfailed | ⟨cursors, hok, -⟩ := Attempt.bind_eq_error.1 h
    · obtain ⟨p, -, hp⟩ := Attempt.mem_of_mapM_eq_error hfailed
      unfold locate at hp
      split at hp
      case h_1 => cases hp
      case h_2 => exact ⟨p, (Except.error.inj hp).symm⟩
    · cases hcursors.symm.trans hok

theorem insert_eq_error (h : (t.insert env property).1 = .error e) :
    ∃ file, (∃ cause, e = .unreadable file cause) ∨ ∃ p, e = .outside p file := by
  by_cases hfile : t.file = none
  · rw [insert_of_none hfile] at h
    cases h
  obtain ⟨file, hfile⟩ := Option.ne_none_iff_exists'.1 hfile
  refine ⟨file, ?_⟩
  cases hnew : t.newText env file property with
  | ok new =>
    obtain ⟨text, hholds, hin, -⟩ := newText_eq_ok.1 hnew
    -- A file that has been read can be written.
    obtain ⟨env', heq, -⟩ := Fits.insert_eq ⟨hfile, hholds, hin⟩ property
    rw [heq] at h
    cases h
  | error e' =>
    simp only [insert, hfile, hnew] at h
    obtain rfl := Except.error.inj h
    obtain hread | ⟨text, -, hedit⟩ := Attempt.bind_eq_error.1 hnew
    · obtain ⟨cause, -, rfl⟩ := Attempt.mapError_eq_error.1 hread
      exact Or.inl ⟨cause, rfl⟩
    · exact Or.inr (edit_eq_error hedit)

end Target

namespace Settings

variable {e : Error}

theorem read_eq_error (h : read env file = .error e) :
    (∃ cause, e = .readSettings file cause) ∨ ∃ cause, e = .invalidSettings file cause := by
  obtain hread | ⟨text, -, hparse⟩ := Attempt.bind_eq_error.1 h
  · obtain ⟨cause, -, rfl⟩ := Attempt.mapError_eq_error.1 hread
    exact Or.inl ⟨cause, rfl⟩
  · obtain ⟨cause, -, rfl⟩ := Attempt.mapError_eq_error.1 hparse
    exact Or.inr ⟨cause, rfl⟩

theorem load_eq_error {named : Option Path} (h : load env named = .error e) :
    ∃ file, (∃ cause, e = .readSettings file cause) ∨ ∃ cause, e = .invalidSettings file cause := by
  unfold load at h
  split at h
  case h_1 | h_2 => exact ⟨_, read_eq_error h⟩
  case h_3 => cases h

end Settings

theorem Position.write_append_ne (p : Position) {a b : Text} {c : Char} (hdigit : c.isDigit = false)
    (hcolon : c ≠ ':') : p.write ++ a ≠ c :: b := by
  intro h
  unfold write at h
  cases hline : Decimal.write p.line with
  | nil =>
    rw [hline] at h
    exact hcolon (List.cons.inj h).1.symm
  | cons d rest =>
    have hmem : d ∈ Decimal.write p.line := by simp [hline]
    have hd : d.isDigit = true := Nat.isDigit_of_mem_toDigits (by decide) (by decide) hmem
    rw [hline] at h
    obtain rfl : d = c := (List.cons.inj h).1
    exact absurd hd (by simp [hdigit])

namespace CommandLine

open Terminal (Key)

variable {written : Bytes}

/-- A command line that names the property behind two hyphens. There it is not taken for a switch,
whichever it is. -/
def argumentsToInsert (property : Text) (file : Path) (written : Bytes) : List Bytes :=
  [word "insert", word "--file=" ++ file, word "--at=" ++ written, word "--", Utf8.encode property]

def readingToInsert (property : Text) (file : Path) (written : Bytes) : Reading where
  uses := [(.position, [written]), (.file, [file])]
  operands := [Utf8.encode property]
  operandsOnly := true

theorem read_argumentsToInsert_eq (property : Text) (file : Path) (written : Bytes) :
    read (argumentsToInsert property file written) =
      match ({} : Reading).invocation? .insert (readingToInsert property file written) with
      | some i => .ok i
      | none => .error .misuse := by
  rfl

theorem ne_nil_of_readPositions? (h : readPositions? written = some positions) :
    positions ≠ [] := by
  unfold readPositions? at h
  cases hparts : written.splitOn ','.toUInt8 with
  | nil => exact absurd hparts (List.splitOn_ne_nil _ _)
  | cons part rest =>
    rw [hparts, List.mapM_cons] at h
    obtain ⟨p, -, h⟩ := Option.bind_eq_some_iff.1 h
    obtain ⟨ps, -, h⟩ := Option.bind_eq_some_iff.1 h
    cases h
    nofun

theorem isSound_readingToInsert (property : Text) (hfile : file ≠ [])
    (hwritten : readPositions? written = some positions) :
    (readingToInsert property file written).isSound .insert = true := by
  have hproperty := Utf8.decode?_encode property
  simp [readingToInsert, Reading.isSound, Reading.usesAreSound, Level.operands, Switch.arity,
    Arity.admits, Switch.accepts, Switch.isRepeatable, isPath, isText, hproperty, hwritten, hfile]

theorem command?_readingToInsert (property : Text) (file : Path)
    (hwritten : readPositions? written = some positions) :
    (readingToInsert property file written).command? .insert =
      some (.insert property file positions) := by
  have hproperty := Utf8.decode?_encode property
  have hoperands : (readingToInsert property file written).operands = [Utf8.encode property] := rfl
  have hfile : (readingToInsert property file written).value? .file = some file := rfl
  have hlisted : (readingToInsert property file written).positions = positions := by
    simp [readingToInsert, Reading.positions, hwritten]
  have hpositions : positions.isEmpty = false := by simpa using ne_nil_of_readPositions? hwritten
  simp [Reading.command?, hoperands, hproperty, hfile, hlisted, hpositions]

theorem read_argumentsToInsert (property : Text) (hfile : file ≠ [])
    (hwritten : readPositions? written = some positions) :
    read (argumentsToInsert property file written) =
      .ok ⟨none, .insert property file positions⟩ := by
  have hfront : ({} : Reading).isSound .program = true := rfl
  have hnone : ({} : Reading).value? .settings = none := rfl
  have hnone' : (readingToInsert property file written).value? .settings = none := rfl
  have hinvocation : ({} : Reading).invocation? .insert (readingToInsert property file written) =
      some ⟨none, .insert property file positions⟩ := by
    simp [Reading.invocation?, isSound_readingToInsert property hfile hwritten, hfront,
      command?_readingToInsert property file hwritten, hnone, hnone']
  rw [read_argumentsToInsert_eq, hinvocation]

namespace Program

theorem message_outside_ne (p : Position) (file : Path) (property : Text) :
    (Target.Failure.outside p file).message ≠ notAName property := by
  intro h
  have htext := congrArg String.toList h
  simp only [Target.Failure.message, notAName, String.toList_append, toString,
    String.toList_ofList, List.append_assoc] at htext
  exact p.write_append_ne (by decide) (by decide) htext

end Program

/-- The user is told that the property is not a name. -/
def Outcome.Refuses (o : Outcome) (property : Text) : Prop :=
  (Program.notAName property, none) ∈ o.errors

namespace Program

theorem refuses_failure {message : String} {causes : List String} :
    Outcome.Refuses
      { code := 1, notices := [failure message causes], environment := env } property ↔
    message = notAName property ∧ causes = [] := by
  cases causes with
  | nil => simp [Outcome.Refuses, Outcome.errors, failure, Notice.error?, eq_comm]
  | cons cause rest => simp [Outcome.Refuses, Outcome.errors, failure, Notice.error?]

theorem refuses_runInsert :
    (runInsert env property file positions).Refuses property ↔ isName property = false := by
  unfold runInsert
  by_cases hname : isName property = true
  · rw [if_pos hname]
    refine iff_of_false ?_ (by simp [hname])
    obtain ⟨hfile, -⟩ | ⟨file', text, env', -, heq, -⟩ | ⟨-, e, heq⟩ :=
      Target.insert_cases ⟨some file, positions⟩ env property
    · cases hfile
    · rw [heq]
      nofun
    · obtain ⟨file', ⟨cause, rfl⟩ | ⟨p, rfl⟩⟩ := Target.insert_eq_error (congrArg Prod.fst heq)
      · rw [heq, refuses_failure]
        nofun
      · rw [heq, refuses_failure]
        exact fun h => message_outside_ne p file' property h.1
  · rw [if_neg hname, refuses_failure]
    exact iff_of_true ⟨rfl, rfl⟩ (by simpa using hname)

variable {keys : List Key} {args : List Bytes} {named : Option Path} {settings : Settings}

theorem refuses_run (hread : read args = .ok ⟨named, .insert property file positions⟩) :
    (run env keys args).Refuses property ↔
      (∃ settings, Settings.load env named = .ok settings) ∧ isName property = false := by
  rw [run_of_read hread]
  cases hload : Settings.load env named with
  | ok settings =>
    rw [invoke_of_load hload]
    exact refuses_runInsert.trans ⟨fun h => ⟨⟨settings, rfl⟩, h⟩, And.right⟩
  | error e =>
    -- The settings come first, and when they fail the user is told of nothing else.
    rw [invoke_of_error hload, refuses_failure]
    refine iff_of_false (fun h => ?_) fun h => nomatch h.1
    obtain ⟨file, ⟨cause, rfl⟩ | ⟨cause, rfl⟩⟩ := Settings.load_eq_error hload
    · cases h.2
    · cases h.2

theorem run_of_fits (hread : read args = .ok ⟨named, .insert property file positions⟩)
    (hload : Settings.load env named = .ok settings) (hname : isName property = true)
    (hfits : Target.Fits ⟨some file, positions⟩ env file text) :
    (run env keys args).code = 0 ∧ env.Rewritten (run env keys args).environment file
      (Utf8.encode (Target.inserted ⟨some file, positions⟩ text property)) := by
  obtain ⟨env', hinsert, -, hrewritten⟩ := hfits.insert_eq property
  have hrun : run env keys args = runInsert env property file positions := by
    rw [run_of_read hread, invoke_of_load hload]
    rfl
  rw [hrun, runInsert, if_pos hname, hinsert]
  exact ⟨rfl, hrewritten⟩

/-- Nothing about the property keeps it from being inserted. -/
structure Insertable (property : Text) : Prop where
  read_eq {file : Path} {written : Bytes} {positions : List Position} (hfile : file ≠ [])
    (hwritten : readPositions? written = some positions) :
    read (argumentsToInsert property file written) = .ok ⟨none, .insert property file positions⟩
  not_refuses {env : Environment} {keys : List Key} {args : List Bytes} {named : Option Path}
    {file : Path} {positions : List Position}
    (hread : read args = .ok ⟨named, .insert property file positions⟩) :
    ¬ (run env keys args).Refuses property
  rewritten {env : Environment} {keys : List Key} {args : List Bytes} {named : Option Path}
    {file : Path} {positions : List Position} {settings : Settings} {text : Text}
    (hread : read args = .ok ⟨named, .insert property file positions⟩)
    (hload : Settings.load env named = .ok settings)
    (hfits : Target.Fits ⟨some file, positions⟩ env file text) :
    (run env keys args).code = 0 ∧ env.Rewritten (run env keys args).environment file
      (Utf8.encode (Target.inserted ⟨some file, positions⟩ text property))

theorem insertable_of_isName (h : isName property = true) : Insertable property where
  read_eq hfile hwritten := read_argumentsToInsert property hfile hwritten
  not_refuses hread hrefuses := by
    obtain ⟨-, hnot⟩ := (refuses_run hread).1 hrefuses
    exact absurd h (by simp [hnot])
  rewritten hread hload hfits := run_of_fits hread hload h hfits

/-- Searching and checking agree on what a name is. A text is a name exactly when the search finds it
whole and nothing else in it. All that is found in any text is a name and can be inserted, and a
property that is found in no text is refused wherever a command line asks for it. -/
theorem found_names_insertable :
    (∀ s : Text, isName s = true ↔ tokens s = [s]) ∧
    (∀ t : Text, ∀ name ∈ tokens t, isName name = true ∧ Insertable name) ∧
    ∀ property : Text, (∀ t, property ∉ tokens t) →
      isName property = false ∧
      ∀ env keys args named settings file positions,
        read args = .ok ⟨named, .insert property file positions⟩ →
        Settings.load env named = .ok settings → (run env keys args).Refuses property := by
  refine ⟨fun s => Property.isName_iff_tokens_eq, fun t name hname => ?_, fun property hnone => ?_⟩
  · have hisName : isName name = true := Property.isName_of_mem_tokens hname
    exact ⟨hisName, insertable_of_isName hisName⟩
  · have hnot : isName property = false := by
      apply eq_false_of_ne_true
      intro hisName
      apply hnone property
      rw [Property.isName_iff_tokens_eq.1 hisName]
      exact List.mem_singleton_self property
    refine ⟨hnot, fun env keys args named settings file positions hread hload => ?_⟩
    exact (refuses_run hread).2 ⟨⟨settings, hload⟩, hnot⟩

theorem found_names_insertable_like_a_switch :
    let t : Text := "var(--file)\n".toList
    let name : Text := "--file".toList
    let broken : Text := "--file\n".toList
    let a : Name := (Name.ofBytes? [0x61]).get rfl
    let env : Environment :=
      { tree := { nodes := [([a], .file [0x78])] }, current := some [], home := none,
        configHome := none }
    let args (property : Text) := argumentsToInsert property [0x61] (word "1:2")
    name ∈ tokens t ∧ isName name = true ∧ tokens name = [name] ∧
    read (args name) = .ok ⟨none, .insert name [0x61] [⟨1, 2⟩]⟩ ∧
    ¬ (run env [] (args name)).Refuses name ∧ (run env [] (args name)).code = 0 ∧
    Scan.Holds (run env [] (args name)).environment [0x61] "xvar(--file)".toList ∧
    tokens broken = [name] ∧ (∀ t, broken ∉ tokens t) ∧ isName broken = false ∧
    read (args broken) = .ok ⟨none, .insert broken [0x61] [⟨1, 2⟩]⟩ ∧
    Settings.load env none = .ok {} ∧ (run env [] (args broken)).Refuses broken := by
  intro t name broken a env args
  obtain ⟨hwhole, hfound, hrefused⟩ := found_names_insertable
  have hname : name ∈ tokens t := by decide +kernel
  have hwritten : readPositions? (word "1:2") = some [⟨1, 2⟩] := by decide +kernel
  have hload : Settings.load env none = .ok {} := by rfl
  obtain ⟨hisName, hinsertable⟩ := hfound t name hname
  have hread : read (args name) = .ok ⟨none, .insert name [0x61] [⟨1, 2⟩]⟩ :=
    hinsertable.read_eq (by decide) hwritten
  have hread' : read (args broken) = .ok ⟨none, .insert broken [0x61] [⟨1, 2⟩]⟩ :=
    read_argumentsToInsert broken (by decide) hwritten
  have hfits : Target.Fits ⟨some [0x61], [⟨1, 2⟩]⟩ env [0x61] ['x'] := by
    refine ⟨rfl, ?_, ?_⟩
    · unfold Scan.Holds
      decide +kernel
    · intro p hp
      obtain rfl := List.mem_singleton.1 hp
      exact Position.isIn_iff.2 ⟨1, by decide +kernel⟩
  obtain ⟨hcode, hrewritten⟩ := hinsertable.rewritten hread hload hfits
  have hinserted : Target.inserted ⟨some [0x61], [⟨1, 2⟩]⟩ ['x'] name = "xvar(--file)".toList := by
    decide +kernel
  have hnone : ∀ t, broken ∉ tokens t := fun t h => absurd (hfound t broken h).1 (by decide)
  obtain ⟨hnot, hrefuses⟩ := hrefused broken hnone
  refine ⟨hname, hisName, (hwhole name).1 hisName, hread, hinsertable.not_refuses hread, hcode, ?_,
    by decide +kernel, hnone, hnot, hread', hload, hrefuses env [] _ none {} _ _ hread' hload⟩
  rw [← hinserted]
  exact hrewritten.read

end Program

end CommandLine

end StyleVars
