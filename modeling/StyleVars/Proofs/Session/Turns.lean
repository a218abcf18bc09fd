import StyleVars.Proofs.Session.Run
import StyleVars.Session.Task

namespace StyleVars.Session

/-- All that a selection can do in one step. -/
inductive Task.Goes (env : Environment) (s : Session) (isFree : Bool) :
    Task → Step Task → Prop where
  | resolve {path root : Path} (h : env.absolute path = .ok root) :
      Goes env s isFree (.named path) ⟨.waiting root, s, []⟩
  | refuse {path : Path} {cause : IoError} (h : env.absolute path = .error cause) :
      Goes env s isFree (.named path)
        ⟨.done (.error (.io cause)), s, (s.fail path (.io cause)).events⟩
  | enter {root : Path} (hfree : isFree = true) :
      Goes env s isFree (.waiting root) ⟨.scanning root, s, []⟩
  | find {root : Path} {properties : PropertySet}
      (h : Scan.scan env s.options root = .ok properties) :
      Goes env s isFree (.scanning root) ⟨.publishing ⟨root, properties⟩, s, []⟩
  | miss {root : Path} {e : Error} (h : Scan.scan env s.options root = .error e) :
      Goes env s isFree (.scanning root) ⟨.leaving (.error e), s, (s.fail root e).events⟩
  | publish {snapshot : Snapshot} :
      Goes env s isFree (.publishing snapshot) ⟨.telling snapshot, (s.publish snapshot).session, []⟩
  | tell {snapshot : Snapshot} :
      Goes env s isFree (.telling snapshot)
        ⟨.leaving (.ok snapshot), s, (s.publish snapshot).events⟩
  | leave {r : Except Error Snapshot} :
      Goes env s isFree (.leaving r) ⟨.done r, s, []⟩

namespace Task

variable {env : Environment} {s : Session} {isFree : Bool} {t : Task} {step : Step Task}

theorem goes_of_step? (h : t.step? env s isFree = some step) : Goes env s isFree t step := by
  cases t with
  | named path =>
    simp only [step?] at h
    split at h
    case h_1 root hpath =>
      cases h
      exact .resolve hpath
    case h_2 cause hpath =>
      cases h
      exact .refuse hpath
  | waiting root =>
    simp only [step?] at h
    split at h
    case isTrue hfree =>
      cases h
      exact .enter hfree
    case isFalse => cases h
  | scanning root =>
    simp only [step?] at h
    split at h
    case h_1 properties hscan =>
      cases h
      exact .find hscan
    case h_2 e hscan =>
      cases h
      exact .miss hscan
  | publishing snapshot =>
    cases h
    exact .publish
  | telling snapshot =>
    cases h
    exact .tell
  | leaving r =>
    cases h
    exact .leave
  | done r => cases h

theorem exists_step? (env : Environment) (s : Session) (hdone : t.result? = none)
    (hfree : isFree = true ∨ ∀ root, t ≠ .waiting root) :
    ∃ step, t.step? env s isFree = some step := by
  cases t with
  | named path =>
    cases hpath : env.absolute path with
    | ok root => exact ⟨_, by simp only [step?, hpath]; rfl⟩
    | error cause => exact ⟨_, by simp only [step?, hpath]; rfl⟩
  | waiting root =>
    obtain hfree | hne := hfree
    · exact ⟨_, if_pos hfree⟩
    · exact absurd rfl (hne root)
  | scanning root =>
    cases hscan : Scan.scan env s.options root with
    | ok properties => exact ⟨_, by simp only [step?, hscan]; rfl⟩
    | error e => exact ⟨_, by simp only [step?, hscan]; rfl⟩
  | publishing snapshot => exact ⟨_, rfl⟩
  | telling snapshot => exact ⟨_, rfl⟩
  | leaving r => exact ⟨_, rfl⟩
  | done r => cases hdone

theorem eq_done {r : Except Error Snapshot} (h : t.result? = some r) : t = .done r := by
  cases t with
  | done r =>
    cases h
    rfl
  | _ => cases h

/-- The most steps that a selection may still take. -/
def toGo : Task → Nat
  | named _ => 6
  | waiting _ => 5
  | scanning _ => 4
  | publishing _ => 3
  | telling _ => 2
  | leaving _ => 1
  | done _ => 0

theorem Goes.toGo_lt (h : Goes env s isFree t step) : step.result.toGo < t.toGo := by
  cases h <;> simp [toGo]

end Task

/-- Neither selection is passed over forever. -/
def Fair (schedule : Nat → Turn) : Prop := ∀ n turn, ∃ m, n ≤ m ∧ schedule m = turn

theorem fair_alternating : Fair fun n => if n % 2 = 0 then .first else .second := by
  intro n turn
  cases turn with
  | first => exact ⟨2 * n, by omega, if_pos (by omega)⟩
  | second => exact ⟨2 * n + 1, by omega, if_neg (by omega)⟩

def Turn.other : Turn → Turn
  | first => second
  | second => first

namespace Pair

def task (p : Pair) : Turn → Task
  | .first => p.first
  | .second => p.second

def advance (p : Pair) (turn : Turn) (step : Step Task) : Pair :=
  match turn with
  | .first =>
    { p with first := step.result, session := step.session, events := p.events ++ step.events }
  | .second =>
    { p with second := step.result, session := step.session, events := p.events ++ step.events }

variable {env : Environment} {p : Pair} {turn : Turn} {step : Step Task} {turns more : List Turn}

@[simp] theorem task_advance (p : Pair) (turn : Turn) (step : Step Task) :
    (p.advance turn step).task turn = step.result := by
  cases turn <;> rfl

@[simp] theorem task_other_advance (p : Pair) (turn : Turn) (step : Step Task) :
    (p.advance turn step).task turn.other = p.task turn.other := by
  cases turn <;> rfl

@[simp] theorem session_advance (p : Pair) (turn : Turn) (step : Step Task) :
    (p.advance turn step).session = step.session := by
  cases turn <;> rfl

@[simp] theorem events_advance (p : Pair) (turn : Turn) (step : Step Task) :
    (p.advance turn step).events = p.events ++ step.events := by
  cases turn <;> rfl

theorem move_eq (env : Environment) (p : Pair) (turn : Turn) :
    p.move env turn =
      match (p.task turn).step? env p.session (!(p.task turn.other).holdsLock) with
      | some step => p.advance turn step
      | none => p := by
  cases turn <;> rfl

theorem move_cases (env : Environment) (p : Pair) (turn : Turn) :
    p.move env turn = p ∨
    ∃ step, (p.task turn).Goes env p.session (!(p.task turn.other).holdsLock) step ∧
      p.move env turn = p.advance turn step := by
  rw [move_eq]
  cases h : (p.task turn).step? env p.session (!(p.task turn.other).holdsLock) with
  | none => exact Or.inl rfl
  | some step => exact Or.inr ⟨step, Task.goes_of_step? h, rfl⟩

theorem run_append (env : Environment) (p : Pair) (turns more : List Turn) :
    p.run env (turns ++ more) = (p.run env turns).run env more := List.foldl_append

def results? (p : Pair) : Option (Except Error Snapshot × Except Error Snapshot) :=
  match p.first.result?, p.second.result? with
  | some r₁, some r₂ => some (r₁, r₂)
  | _, _ => none

theorem results?_eq_some {r₁ r₂ : Except Error Snapshot} (h : p.results? = some (r₁, r₂)) :
    p.first = .done r₁ ∧ p.second = .done r₂ := by
  unfold results? at h
  split at h
  case h_1 hfirst hsecond =>
    cases h
    exact ⟨Task.eq_done hfirst, Task.eq_done hsecond⟩
  case h_2 => cases h

def toGo (p : Pair) : Nat := p.first.toGo + p.second.toGo

theorem toGo_eq (p : Pair) (turn : Turn) :
    p.toGo = (p.task turn).toGo + (p.task turn.other).toGo := by
  cases turn with
  | first => rfl
  | second => exact Nat.add_comm _ _

theorem move_eq_or_toGo_lt (env : Environment) (p : Pair) (turn : Turn) :
    p.move env turn = p ∨ (p.move env turn).toGo < p.toGo := by
  obtain h | ⟨step, hgoes, h⟩ := move_cases env p turn
  · exact Or.inl h
  · refine Or.inr ?_
    have hlt := hgoes.toGo_lt
    rw [h, toGo_eq _ turn, toGo_eq p turn, task_advance, task_other_advance]
    omega

theorem exists_toGo_lt (env : Environment) (h : p.results? = none) :
    ∃ turn, (p.move env turn).toGo < p.toGo := by
  have hgoes {turn : Turn} (hdone : (p.task turn).result? = none)
      (hfree : (p.task turn.other).holdsLock = false ∨ ∀ root, p.task turn ≠ .waiting root) :
      (p.move env turn).toGo < p.toGo := by
    have hfree : (!(p.task turn.other).holdsLock) = true ∨ ∀ root, p.task turn ≠ .waiting root :=
      hfree.imp_left fun h => by rw [h, Bool.not_false]
    obtain ⟨step, hstep⟩ := Task.exists_step? env p.session hdone hfree
    have hlt := (Task.goes_of_step? hstep).toGo_lt
    rw [move_eq, hstep, toGo_eq _ turn, toGo_eq p turn, task_advance, task_other_advance]
    omega
  have hopen : ∃ turn, (p.task turn).result? = none := by
    unfold results? at h
    cases hfirst : p.first.result? with
    | none => exact ⟨.first, hfirst⟩
    | some r₁ =>
      cases hsecond : p.second.result? with
      | none => exact ⟨.second, hsecond⟩
      | some r₂ =>
        rw [hfirst, hsecond] at h
        cases h
  obtain ⟨turn, hdone⟩ := hopen
  -- The one that keeps the other waiting can go on. If there is none, any open one can.
  cases hlock : (p.task turn.other).holdsLock with
  | false => exact ⟨turn, hgoes hdone (Or.inl hlock)⟩
  | true =>
    refine ⟨turn.other, hgoes ?_ (Or.inr fun root hroot => ?_)⟩
    · cases hother : p.task turn.other with
      | done r =>
        rw [hother] at hlock
        cases hlock
      | _ => rfl
    · rw [hroot] at hlock
      cases hlock

def turnsOf (schedule : Nat → Turn) (n : Nat) : List Turn := (List.range n).map schedule

theorem turnsOf_succ (schedule : Nat → Turn) (n : Nat) :
    turnsOf schedule (n + 1) = schedule 0 :: turnsOf (fun i => schedule (i + 1)) n := by
  rw [turnsOf, List.range_succ_eq_map, List.map_cons, List.map_map]
  rfl

theorem turnsOf_add (schedule : Nat → Turn) (n m : Nat) :
    turnsOf schedule (n + m) = turnsOf schedule n ++ turnsOf (fun i => schedule (n + i)) m := by
  rw [turnsOf, List.range_add, List.map_append, List.map_map]
  rfl

theorem exists_toGo_lt_of_turn (schedule : Nat → Turn) {m : Nat} (hm : schedule m = turn)
    (h : (p.move env turn).toGo < p.toGo) :
    ∃ n, (p.run env (turnsOf schedule n)).toGo < p.toGo := by
  induction m generalizing schedule with
  | zero => exact ⟨1, by rwa [turnsOf_succ, hm]⟩
  | succ m ih =>
    -- Until the turn comes, either nothing changes or an earlier one has been of use.
    obtain hstays | hlt := move_eq_or_toGo_lt env p (schedule 0)
    · obtain ⟨n, hn⟩ := ih (fun i => schedule (i + 1)) hm
      refine ⟨n + 1, ?_⟩
      rw [turnsOf_succ]
      change ((p.move env (schedule 0)).run env _).toGo < _
      rwa [hstays]
    · exact ⟨1, by rwa [turnsOf_succ]⟩

theorem exists_results_of_fair (env : Environment) (p : Pair) {schedule : Nat → Turn}
    (hfair : Fair schedule) : ∃ n, (p.run env (turnsOf schedule n)).results?.isSome = true := by
  induction hk : p.toGo using Nat.strongRecOn generalizing p schedule with
  | ind k ih =>
    cases hresults : p.results? with
    | some r => exact ⟨0, Option.isSome_iff_exists.2 ⟨r, hresults⟩⟩
    | none =>
      obtain ⟨turn, hturn⟩ := exists_toGo_lt env hresults
      obtain ⟨m, -, hm⟩ := hfair 0 turn
      obtain ⟨n, hn⟩ := exists_toGo_lt_of_turn schedule hm hturn
      have hlater : Fair fun i => schedule (n + i) := fun i turn => by
        obtain ⟨m, hle, hm⟩ := hfair (n + i) turn
        refine ⟨m - n, by omega, ?_⟩
        change schedule (n + (m - n)) = turn
        rw [Nat.add_sub_cancel' (by omega), hm]
      obtain ⟨n', hn'⟩ := ih _ (hk ▸ hn) (p.run env (turnsOf schedule n)) hlater rfl
      exact ⟨n + n', by rwa [turnsOf_add, run_append]⟩

end Pair

end StyleVars.Session
