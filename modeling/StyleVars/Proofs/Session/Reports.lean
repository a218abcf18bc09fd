import StyleVars.Proofs.Session.History

namespace StyleVars

def Notice.error? : Notice → Option (String × Option String)
  | .error message hint => some (message, hint)
  | .info _ | .success _ | .warning _ => none

def Event.error? : Event → Option (String × Option String)
  | .shown notice => notice.error?
  | .folderAsked _ | .updated _ _ => none

namespace Session

variable {α : Type} {env : Environment} {s : Session} {i : Interface} {events : List Event}
  {result : Except Error α}

def errors (events : List Event) : List (String × Option String) := events.filterMap Event.error?

/-- Whether a message tells of an error: it ends in the error's own text, and the error's hint goes
with it. -/
def Tells (shown : String × Option String) (e : Error) : Prop :=
  (∃ start, shown.1 = start ++ e.message) ∧ shown.2 = e.hint?

/-- Whether the events tell of a failure once, and of nothing else. -/
def Reported (i : Interface) (events : List Event) : Except Error α → Prop
  | .ok _ => errors events = []
  | .error e => ∃ shown, Tells shown e ∧ errors events = errors (i.report (.error shown.1 shown.2))

theorem errors_append (xs ys : List Event) : errors (xs ++ ys) = errors xs ++ errors ys :=
  List.filterMap_append

theorem errors_askFolder (i : Interface) (title : String) : errors (i.askFolder title) = [] := by
  cases i <;> rfl

theorem errors_updated (listeners : List Nat) (snapshot : Snapshot) :
    errors (listeners.map (.updated · snapshot)) = [] := by
  unfold errors
  rw [List.filterMap_map, List.filterMap_eq_nil_iff]
  exact fun _ _ => rfl

theorem reported_publish (s : Session) (snapshot : Snapshot) :
    Reported i (s.publish snapshot).events (s.publish snapshot).result :=
  errors_updated s.listeners snapshot

theorem reported_fail (s : Session) (place : Path) (e : Error) :
    Reported s.interface (s.fail place e).events (s.fail place e).result :=
  ⟨(s!"Failed to scan {place.display}: {e.message}", e.hint?),
    ⟨⟨s!"Failed to scan {place.display}: ", rfl⟩, rfl⟩, rfl⟩

theorem Reported.some {step : Step (Except Error α)}
    (h : Reported i step.events step.result) : Reported i step.some.events step.some.result := by
  unfold Step.some
  cases hresult : step.result with
  | ok x =>
    rw [hresult] at h
    exact h
  | error e =>
    rw [hresult] at h
    exact h

theorem Reported.asked (h : Reported i events result) (title : String) :
    Reported i (i.askFolder title ++ events) result := by
  have herrors : errors (i.askFolder title ++ events) = errors events := by
    rw [errors_append, errors_askFolder, List.nil_append]
  cases result with
  | ok x => exact herrors.trans h
  | error e =>
    obtain ⟨shown, htells, h⟩ := h
    exact ⟨shown, htells, herrors.trans h⟩

theorem reported_scanAndPublish (env : Environment) (s : Session) (root : Path) :
    Reported s.interface (s.scanAndPublish env root).events (s.scanAndPublish env root).result := by
  obtain ⟨properties, -, h⟩ | ⟨e, -, h⟩ := scanAndPublish_cases env s root
  · rw [h]
    exact reported_publish s _
  · rw [h]
    exact reported_fail s root e

theorem reported_select (env : Environment) (s : Session) (path : Path) :
    Reported s.interface (s.select env path).events (s.select env path).result := by
  obtain ⟨snapshot, -, -, h⟩ | ⟨place, e, h⟩ := select_cases env s path
  · rw [h]
    exact reported_publish s snapshot
  · rw [h]
    exact reported_fail s place e

theorem reported_refresh (env : Environment) (s : Session) :
    Reported s.interface (s.refresh env).events (s.refresh env).result := by
  unfold refresh
  cases s.root with
  | none => rfl
  | some root => exact (reported_scanAndPublish env s root).some

theorem reported_choose (env : Environment) (s : Session) (answer : Option Path) :
    Reported s.interface (s.choose env (.ok answer)).events (s.choose env (.ok answer)).result := by
  cases hi : s.interface with
  | headless => simp [choose, hi, Reported, errors_askFolder]
  | visible =>
    cases answer with
    | none => simp [choose, hi, Reported, errors_askFolder]
    | some path =>
      have h := (reported_select env s path).some.asked "Select CSS Folder"
      simpa only [choose, hi] using h

theorem choose_of_error (h : s.interface = .visible) (env : Environment) (cause : IoError) :
    s.choose env (.error cause) =
      ⟨.error (.io cause), s, s.interface.askFolder "Select CSS Folder"⟩ := by
  simp only [choose, h]

theorem Effect.interface_eq {op : Operation} {step : Step Answer} (h : Effect env s op step) :
    step.session.interface = s.interface := by
  cases h <;> rfl

theorem after_interface (s : Session) (ops : List (Environment × Operation)) :
    (s.after ops).interface = s.interface := by
  induction ops generalizing s with
  | nil => rfl
  | cons x rest ih =>
    obtain ⟨env, op⟩ := x
    exact (ih _).trans (perform_effect env s op).interface_eq

theorem reported_perform {op : Operation} {found : Except Error (Option Snapshot)}
    (hop : ∀ cause, op ≠ .choose (.error cause))
    (hresult : (s.perform env op).result = .scanned found) :
    Reported s.interface (s.perform env op).events found := by
  cases op with
  | subscribe => cases hresult
  | select path =>
    cases hresult
    exact (reported_select env s path).some
  | choose picked =>
    cases hresult
    cases picked with
    | ok answer => exact reported_choose env s answer
    | error cause => exact absurd rfl (hop cause)
  | refresh =>
    cases hresult
    exact reported_refresh env s
  | filter term => cases hresult
  | insert focused property => cases hresult

theorem errors_report (i : Interface) (message : String × Option String) :
    errors (i.report (.error message.1 message.2)) =
      if i = .visible then [message] else [] := by
  cases i <;> rfl

/-- What every call of a session tells, whatever the operations before it have done. A call that
fails shows one error, which is its own, and a call that succeeds shows none. Only a folder picker
that fails is passed over in silence, and a headless interface, which shows nothing at all. -/
theorem failure_reported (options : ScanOptions) (interface : Interface)
    (ops : List (Environment × Operation)) (env : Environment) (op : Operation)
    {found : Except Error (Option Snapshot)}
    (hresult : ((({ options, interface } : Session).after ops).perform env op).result =
      .scanned found) :
    let shown := errors ((({ options, interface } : Session).after ops).perform env op).events
    ((∀ cause, op ≠ .choose (.error cause)) →
      (interface = .visible → ((∃ e, found = .error e) ↔ shown.length = 1)) ∧
      (∀ e, found = .error e →
        ∃ message, Tells message e ∧ shown = if interface = .visible then [message] else []) ∧
      ∀ snapshot, found = .ok snapshot → shown = []) ∧
    (interface = .visible → ∀ cause, op = .choose (.error cause) →
      found = .error (.io cause) ∧ shown = []) := by
  intro shown
  have hinterface : (({ options, interface } : Session).after ops).interface = interface :=
    after_interface _ ops
  refine ⟨fun hop => ?_, ?_⟩
  · have h := reported_perform hop hresult
    rw [hinterface] at h
    cases found with
    | ok snapshot =>
      have hshown : shown = [] := h
      exact ⟨fun _ => iff_of_false (fun ⟨_, he⟩ => nomatch he) (by simp [hshown]), nofun,
        fun _ _ => hshown⟩
    | error e =>
      obtain ⟨message, htells, hshown⟩ := h
      have hshown : shown = if interface = .visible then [message] else [] :=
        hshown.trans (errors_report interface message)
      refine ⟨fun hvisible => iff_of_true ⟨e, rfl⟩ (by simp [hshown, hvisible]), ?_, nofun⟩
      rintro _ ⟨⟩
      exact ⟨message, htells, hshown⟩
  · rintro hvisible cause rfl
    have hchoose := choose_of_error (hinterface.trans hvisible) env cause
    simp only [perform, Step.map, hchoose] at hresult
    refine ⟨(Answer.scanned.inj hresult).symm, ?_⟩
    simp only [shown, perform, Step.map, hchoose, errors_askFolder]

theorem failure_reported_missing_folder :
    let w : Name := (Name.ofBytes? [0x77]).get rfl
    let env : Environment :=
      { tree := { nodes := [([w], .folder)] }, current := some [], home := none,
        configHome := none }
    let s := Session.after {} [(env, .select [0x2f, 0x77])]
    let cause : IoError := .fault .missing
    let shown := errors (s.perform env (.select [0x78])).events
    s.root = some [0x2f, 0x77] ∧
    (s.perform env (.select [0x78])).result = .scanned (.error (.readFolder [0x2f, 0x78] cause)) ∧
    shown.length = 1 ∧ ∃ message, Tells message (.readFolder [0x2f, 0x78] cause) ∧
      shown = [message] := by
  intro w env s cause shown
  have hresult : (s.perform env (.select [0x78])).result =
      .scanned (.error (.readFolder [0x2f, 0x78] cause)) := by rfl
  obtain ⟨hshown, htells, -⟩ :=
    (failure_reported {} .visible [(env, .select [0x2f, 0x77])] env _ hresult).1 nofun
  exact ⟨by decide +kernel, hresult, (hshown rfl).1 ⟨_, rfl⟩, htells _ rfl⟩

/-- A folder picker that is refused the terminal. The call fails, and no message is shown. -/
theorem picker_failure_not_reported :
    ¬ ∀ (options : ScanOptions) (ops : List (Environment × Operation)) (env : Environment)
      (op : Operation) (found : Except Error (Option Snapshot)),
      ((({ options } : Session).after ops).perform env op).result = .scanned found →
      ((∃ e, found = .error e) ↔
        (errors ((({ options } : Session).after ops).perform env op).events).length = 1) := by
  intro h
  let env : Environment := { tree := .empty, current := some [], home := none, configHome := none }
  let refused : IoError := .ofKind .permissionDenied
  have hone := (h {} [] env (.choose (.error refused)) (.error (.io refused)) rfl).1 ⟨_, rfl⟩
  exact absurd hone (by decide)

end Session

end StyleVars
