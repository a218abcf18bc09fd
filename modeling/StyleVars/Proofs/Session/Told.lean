import StyleVars.Proofs.Session.History
import StyleVars.Proofs.Session.Turns

namespace StyleVars.Session

variable {env : Environment} {s : Session} {isFree : Bool}

def told (events : List Event) (listener : Nat) : List Snapshot :=
  events.filterMap (Event.updateFor? listener)

theorem told_append (xs ys : List Event) (listener : Nat) :
    told (xs ++ ys) listener = told xs listener ++ told ys listener := List.filterMap_append

theorem Quiet.told_append {ys : List Event} (h : Quiet ys) (xs : List Event) (listener : Nat) :
    told (xs ++ ys) listener = told xs listener := by
  rw [Session.told_append, told, told, h.updates_eq_nil, List.append_nil]

theorem told_publish (hs : s.Numbered) (snapshot : Snapshot) {listener : Nat}
    (hl : listener < s.listeners.length) :
    told (s.publish snapshot).events listener = [snapshot] := by
  rw [told, publish, hs, updates_range, if_pos hl]

namespace Task

/-- The snapshot that is published and of which the listeners have not been told yet. -/
def telling? : Task → Option Snapshot
  | telling snapshot => some snapshot
  | _ => none

variable {t : Task} {step : Step Task}

theorem telling?_of_free (h : t.holdsLock = false) : t.telling? = none := by
  cases t with
  | telling => cases h
  | _ => rfl

theorem Goes.holdsLock (h : Goes env s isFree t step) (hlock : step.result.holdsLock = true) :
    t.holdsLock = true ∨ isFree = true := by
  cases h with
  | resolve | refuse | leave => cases hlock
  | enter hfree => exact Or.inr hfree
  | find | miss | publish | tell => exact Or.inl rfl

/-- A step publishes a snapshot, or it tells all listeners of the one that was published, or neither
of the two. -/
inductive Spoken (s : Session) : Task → Step Task → Prop where
  | published (snapshot : Snapshot) :
      Spoken s (.publishing snapshot) ⟨.telling snapshot, (s.publish snapshot).session, []⟩
  | told (snapshot : Snapshot) :
      Spoken s (.telling snapshot) ⟨.leaving (.ok snapshot), s, (s.publish snapshot).events⟩
  | silent {t : Task} {step : Step Task} (hsession : step.session = s) (hquiet : Quiet step.events)
      (hbefore : t.telling? = none) (hafter : step.result.telling? = none) : Spoken s t step

theorem Goes.spoken (h : Goes env s isFree t step) : Spoken s t step := by
  cases h with
  | publish => exact .published _
  | tell => exact .told _
  | refuse | miss => exact .silent rfl (quiet_report _ _) rfl rfl
  | resolve | enter | find | leave => exact .silent rfl quiet_nil rfl rfl

theorem Spoken.listeners_eq (h : Spoken s t step) : step.session.listeners = s.listeners := by
  cases h with
  | published | told => rfl
  | silent hsession => rw [hsession]

end Task

theorem Turn.eq_or_eq_other (turn other : Turn) : other = turn ∨ other = turn.other := by
  cases turn <;> cases other <;> simp [Turn.other]

namespace Pair

variable {p : Pair} {turn : Turn} {step : Step Task} {n : Nat} {heard : Nat → List Snapshot}

theorem telling?_advance {t : Turn} {snapshot : Snapshot}
    (h : ((p.advance turn step).task t).telling? = some snapshot) :
    step.result.telling? = some snapshot ∨ (p.task turn.other).telling? = some snapshot := by
  obtain rfl | rfl := Turn.eq_or_eq_other turn t
  · exact Or.inl (by rwa [task_advance] at h)
  · exact Or.inr (by rwa [task_other_advance] at h)

/-- What holds at any time of two selections, where `n` listeners are registered and each of them has
been told of the snapshots `heard` before. -/
structure Current (n : Nat) (heard : Nat → List Snapshot) (p : Pair) : Prop where
  numbered : p.session.Numbered
  length_listeners : p.session.listeners.length = n
  alone (turn : Turn) (h : (p.task turn).holdsLock = true) :
    (p.task turn.other).holdsLock = false
  published_of_telling {turn : Turn} {snapshot : Snapshot}
    (h : (p.task turn).telling? = some snapshot) : p.session.published = some snapshot
  published_of_told (h : ∀ turn, (p.task turn).telling? = none) {listener : Nat} (hl : listener < n)
    {snapshot : Snapshot}
    (hlast : (heard listener ++ told p.events listener).getLast? = some snapshot) :
    p.session.published = some snapshot

namespace Current

theorem telling?_of_holdsLock (h : Current n heard p) (hlock : (p.task turn).holdsLock = true)
    {t : Turn} {snapshot : Snapshot}
    (ht : ((p.advance turn step).task t).telling? = some snapshot) :
    step.result.telling? = some snapshot := by
  obtain hmover | hother := telling?_advance ht
  · exact hmover
  · rw [Task.telling?_of_free (h.alone turn hlock)] at hother
    cases hother

theorem alone_advance (h : Current n heard p)
    (hgoes : (p.task turn).Goes env p.session (!(p.task turn.other).holdsLock) step) (t : Turn)
    (hlock : ((p.advance turn step).task t).holdsLock = true) :
    ((p.advance turn step).task t.other).holdsLock = false := by
  have hmover (hstep : step.result.holdsLock = true) : (p.task turn.other).holdsLock = false := by
    obtain hbefore | hfree := hgoes.holdsLock hstep
    · exact h.alone turn hbefore
    · simpa using hfree
  obtain rfl | rfl := Turn.eq_or_eq_other turn t
  · rw [task_advance] at hlock
    rw [task_other_advance]
    exact hmover hlock
  · rw [task_other_advance] at hlock
    rw [show turn.other.other = turn by cases turn <;> rfl, task_advance]
    cases hstep : step.result.holdsLock with
    | false => rfl
    | true =>
      rw [hmover hstep] at hlock
      cases hlock

theorem advance (h : Current n heard p)
    (hgoes : (p.task turn).Goes env p.session (!(p.task turn.other).holdsLock) step) :
    Current n heard (p.advance turn step) := by
  have halone := h.alone_advance hgoes
  have hspoken := hgoes.spoken
  have hlisteners := hspoken.listeners_eq
  have hnumbered : (p.advance turn step).session.Numbered := by
    rw [session_advance, Numbered, hlisteners]
    exact h.numbered
  have hlength : (p.advance turn step).session.listeners.length = n := by
    rw [session_advance, hlisteners]
    exact h.length_listeners
  generalize hmover : p.task turn = t at hspoken
  have hlock (ht : t.holdsLock = true) : (p.task turn).holdsLock = true := by rwa [hmover]
  cases hspoken with
  | published snapshot =>
    refine ⟨hnumbered, hlength, halone, fun {t x} ht => ?_, fun hnone => ?_⟩
    · rw [session_advance]
      exact h.telling?_of_holdsLock (hlock rfl) ht
    · -- There is still someone to tell, so nothing is claimed of what has been told.
      have hturn := hnone turn
      rw [task_advance] at hturn
      cases hturn
  | told snapshot =>
    have htelling : (p.task turn).telling? = some snapshot := by rw [hmover]; rfl
    have hpublished := h.published_of_telling htelling
    refine ⟨hnumbered, hlength, halone, fun {t x} ht => ?_, ?_⟩
    · cases h.telling?_of_holdsLock (hlock rfl) ht
    · intro hnone listener hl x hlast
      rw [events_advance, told_append, told_publish h.numbered snapshot (h.length_listeners ▸ hl),
        ← List.append_assoc, List.getLast?_concat] at hlast
      rw [session_advance, ← hlast]
      exact hpublished
  | silent hsession hquiet hbefore hafter =>
    refine ⟨hnumbered, hlength, halone, ?_, ?_⟩
    · intro t x ht
      rw [session_advance, hsession]
      obtain hx | hx := telling?_advance ht
      · rw [hafter] at hx
        cases hx
      · exact h.published_of_telling hx
    · intro hnone listener hl x hlast
      have hnone (t : Turn) : (p.task t).telling? = none := by
        obtain rfl | rfl := Turn.eq_or_eq_other turn t
        · rw [hmover]
          exact hbefore
        · rw [← task_other_advance p turn step]
          exact hnone _
      rw [events_advance, hquiet.told_append] at hlast
      rw [session_advance, hsession]
      exact h.published_of_told hnone hl hlast

theorem run (h : Current n heard p) (env : Environment) (turns : List Turn) :
    Current n heard (p.run env turns) := by
  induction turns generalizing p with
  | nil => exact h
  | cons turn rest ih =>
    apply ih
    obtain hstays | ⟨step, hgoes, hstep⟩ := move_cases env p turn
    · rw [hstays]
      exact h
    · rw [hstep]
      exact h.advance hgoes

end Current

theorem current_pair (options : ScanOptions) (interface : Interface)
    (ops : List (Environment × Operation)) (first second : Path) :
    let new : Session := { options, interface }
    Current (new.after ops).listeners.length (new.received · ops)
      ((new.after ops).pair first second) := by
  intro new
  have hnew : new.Numbered := rfl
  refine ⟨numbered_after hnew ops, rfl, ?_, ?_, ?_⟩
  · rintro (_ | _) hlock <;> cases hlock
  · rintro (_ | _) snapshot htelling <;> cases htelling
  · intro hnone listener hl snapshot hlast
    have hnothing : told ((new.after ops).pair first second).events listener = [] := rfl
    rw [hnothing, List.append_nil] at hlast
    exact published_of_received hnew hlast

end Pair

end StyleVars.Session
