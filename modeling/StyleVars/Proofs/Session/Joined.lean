import StyleVars.Proofs.Attempt
import StyleVars.Proofs.Session.Told

namespace StyleVars.Session

variable {env : Environment} {s s' : Session} {path first second : Path} {isFree : Bool}

theorem select_of_refused {cause : IoError} (h : env.absolute path = .error cause) :
    s.select env path = s.fail path (.io cause) := by
  unfold select
  rw [h]

theorem select_of_missed {root : Path} {e : Error} (hroot : env.absolute path = .ok root)
    (hscan : Scan.scan env s.options root = .error e) : s.select env path = s.fail root e := by
  unfold select scanAndPublish
  rw [hroot]
  simp only [hscan]

theorem select_of_found {snapshot : Snapshot} (hroot : env.absolute path = .ok snapshot.root)
    (hscan : Scan.scan env s.options snapshot.root = .ok snapshot.properties) :
    s.select env path = s.publish snapshot := by
  unfold select scanAndPublish
  rw [hroot]
  simp only [hscan]

namespace Task

/-- How far a selection of the path has come that has found the session `s`. Beside it stand the
session as it is by then and what the selection has told. -/
inductive Came (env : Environment) (s : Session) (path : Path) :
    Task → Session → List Event → Prop where
  | named : Came env s path (.named path) s []
  | waiting {root : Path} (hroot : env.absolute path = .ok root) :
      Came env s path (.waiting root) s []
  | scanning {root : Path} (hroot : env.absolute path = .ok root) :
      Came env s path (.scanning root) s []
  | publishing {snapshot : Snapshot} (hroot : env.absolute path = .ok snapshot.root)
      (hscan : Scan.scan env s.options snapshot.root = .ok snapshot.properties) :
      Came env s path (.publishing snapshot) s []
  | telling {snapshot : Snapshot} (hroot : env.absolute path = .ok snapshot.root)
      (hscan : Scan.scan env s.options snapshot.root = .ok snapshot.properties) :
      Came env s path (.telling snapshot) (s.publish snapshot).session []
  | leaving {step : Session.Step (Except Error Snapshot)} (hstep : s.select env path = step) :
      Came env s path (.leaving step.result) step.session step.events
  | done {step : Session.Step (Except Error Snapshot)} (hstep : s.select env path = step) :
      Came env s path (.done step.result) step.session step.events

variable {t : Task} {heard : List Event} {step : Step Task}

theorem Came.goes (h : Came env s path t s' heard) (hgoes : Goes env s' isFree t step) :
    Came env s path step.result step.session (heard ++ step.events) := by
  cases hgoes with
  | resolve hroot =>
    cases h
    exact .waiting hroot
  | refuse hroot =>
    cases h
    exact .done (select_of_refused hroot)
  | enter hfree =>
    cases h with
    | waiting hroot => exact .scanning hroot
  | find hscan =>
    cases h with
    | scanning hroot => exact .publishing hroot hscan
  | miss hscan =>
    cases h with
    | scanning hroot => exact .leaving (select_of_missed hroot hscan)
  | publish =>
    cases h with
    | publishing hroot hscan => exact .telling hroot hscan
  | tell =>
    cases h with
    | telling hroot hscan => exact .leaving (select_of_found hroot hscan)
  | leave =>
    cases h with
    | leaving hstep =>
      rw [List.append_nil]
      exact .done hstep

theorem Came.of_done {r : Except Error Snapshot} (h : Came env s path (.done r) s' heard) :
    s.select env path = ⟨r, s', heard⟩ := by
  cases h with
  | done hstep => exact hstep

def mayAsk : Task → Bool
  | named _ | waiting _ => true
  | scanning _ | publishing _ | telling _ | leaving _ | done _ => false

theorem mayAsk_of_goes (h : Goes env s isFree t step) (hask : step.result.mayAsk = true) :
    t.mayAsk = true ∧ step.result.holdsLock = false := by
  cases h with
  | resolve => exact ⟨rfl, rfl⟩
  | _ => cases hask

/-- A selection that has not scanned anything, so that it does not matter which session it finds. -/
inductive Outside (env : Environment) (path : Path) : Task → Prop where
  | named : Outside env path (.named path)
  | waiting {root : Path} (hroot : env.absolute path = .ok root) : Outside env path (.waiting root)
  | refused {cause : IoError} (hroot : env.absolute path = .error cause) :
      Outside env path (.done (.error (.io cause)))

theorem Outside.holdsLock_eq (h : Outside env path t) : t.holdsLock = false := by
  cases h <;> rfl

theorem Outside.came (h : Outside env path t) (s : Session) :
    ∃ heard, Quiet heard ∧ Came env s path t s heard := by
  cases h with
  | named => exact ⟨[], quiet_nil, .named⟩
  | waiting hroot => exact ⟨[], quiet_nil, .waiting hroot⟩
  | refused hroot => exact ⟨_, quiet_report _ _, .done (select_of_refused hroot)⟩

theorem Outside.goes (h : Outside env path t) (hgoes : Goes env s isFree t step)
    (hlock : step.result.holdsLock = false) :
    Outside env path step.result ∧ step.session = s ∧ Quiet step.events := by
  cases hgoes with
  | resolve hroot =>
    cases h
    exact ⟨.waiting hroot, rfl, quiet_nil⟩
  | refuse hroot =>
    cases h
    exact ⟨.refused hroot, rfl, quiet_report _ _⟩
  | enter | find | miss | publish | tell => cases hlock
  | leave => cases h

/-- A selection after which the next one may begin: it is done, or it cannot begin itself. -/
inductive Past (env : Environment) (s : Session) (path : Path) : Task → Prop where
  | done {r : Except Error Snapshot} (hr : (s.select env path).result = r) :
      Past env s path (.done r)
  | refused {cause : IoError} (hroot : env.absolute path = .error cause) :
      Past env s path (.named path)

theorem Past.goes (h : Past env s path t) (hgoes : Goes env s' isFree t step) :
    Past env s path step.result ∧ step.session = s' ∧ Quiet step.events := by
  cases hgoes with
  | resolve hroot =>
    cases h with
    | refused hcause =>
      rw [hroot] at hcause
      cases hcause
  | refuse hroot =>
    cases h
    exact ⟨.done (congrArg Step.result (select_of_refused hroot)), rfl, quiet_report _ _⟩
  | _ => cases h

theorem Came.past (h : Came env s path t s' heard) (hfree : t.holdsLock = false)
    (hask : t.mayAsk = true → ∀ root, env.absolute path ≠ .ok root) :
    Past env s path t ∧ s' = (s.select env path).session ∧
      ∀ l, told heard l = told (s.select env path).events l := by
  cases h with
  | named =>
    cases hroot : env.absolute path with
    | ok root => exact absurd hroot (hask rfl root)
    | error cause =>
      rw [select_of_refused hroot]
      refine ⟨.refused hroot, rfl, fun l => ?_⟩
      exact ((quiet_report _ _).told_append [] l).symm
  | waiting hroot => exact absurd hroot (hask rfl _)
  | scanning | publishing | telling | leaving => cases hfree
  | done hstep => exact ⟨.done (congrArg Step.result hstep), by rw [hstep], fun l => by rw [hstep]⟩

end Task

namespace Pair

variable {p : Pair} {turn : Turn} {step : Step Task}

/-- Whether the selection whose turn it is begins to scan. -/
def enters (env : Environment) (p : Pair) (turn : Turn) : Bool :=
  !(p.task turn).holdsLock && ((p.move env turn).task turn).holdsLock

def entries (env : Environment) : Pair → List Turn → List Turn
  | _, [] => []
  | p, turn :: rest =>
    if p.enters env turn then turn :: entries env (p.move env turn) rest
    else entries env (p.move env turn) rest

/-- The first selection is the only one so far that has done anything to the session. -/
structure Before (env : Environment) (s : Session) (first second : Path) (p : Pair) : Prop where
  came : ∃ heard, p.first.Came env s first p.session heard ∧ ∀ l, told p.events l = told heard l
  outside : p.second.Outside env second

/-- The second selection has found the session as the first one leaves it. -/
structure Behind (env : Environment) (s : Session) (first second : Path) (p : Pair) : Prop where
  past : p.first.Past env s first
  came : ∃ heard, p.second.Came env (s.select env first).session second p.session heard ∧
    ∀ l, told p.events l = told (s.select env first).events l ++ told heard l

theorem before_pair (env : Environment) (s : Session) (first second : Path) :
    (s.pair first second).Before env s first second :=
  ⟨⟨[], .named, fun _ => rfl⟩, .named⟩

namespace Before

theorem behind (h : p.Before env s first second) (hfree : p.first.holdsLock = false)
    (hask : p.first.mayAsk = true → ∀ root, env.absolute first ≠ .ok root) :
    p.Behind env s first second := by
  obtain ⟨heard, hcame, htold⟩ := h.came
  obtain ⟨hpast, hsession, hheard⟩ := hcame.past hfree hask
  obtain ⟨quiet, hquiet, hsecond⟩ := h.outside.came p.session
  refine ⟨hpast, quiet, ?_, fun l => ?_⟩
  · rwa [← hsession]
  · rw [htold, hheard, ← told_append, hquiet.told_append]

theorem advance_first (h : p.Before env s first second)
    (hgoes : p.first.Goes env p.session isFree step) :
    (p.advance .first step).Before env s first second := by
  obtain ⟨heard, hcame, htold⟩ := h.came
  refine ⟨⟨heard ++ step.events, hcame.goes hgoes, fun l => ?_⟩, h.outside⟩
  rw [events_advance, told_append, told_append, htold]

theorem advance_second (h : p.Before env s first second)
    (hgoes : p.second.Goes env p.session isFree step) (hlock : step.result.holdsLock = false) :
    (p.advance .second step).Before env s first second := by
  obtain ⟨heard, hcame, htold⟩ := h.came
  obtain ⟨houtside, hsession, hquiet⟩ := h.outside.goes hgoes hlock
  refine ⟨⟨heard, ?_, fun l => ?_⟩, houtside⟩
  · rw [session_advance, hsession]
    exact hcame
  · rw [events_advance, hquiet.told_append, htold]

end Before

namespace Behind

theorem advance_first (h : p.Behind env s first second)
    (hgoes : p.first.Goes env p.session isFree step) :
    (p.advance .first step).Behind env s first second := by
  obtain ⟨heard, hcame, htold⟩ := h.came
  obtain ⟨hpast, hsession, hquiet⟩ := h.past.goes hgoes
  refine ⟨hpast, heard, ?_, fun l => ?_⟩
  · rw [session_advance, hsession]
    exact hcame
  · rw [events_advance, hquiet.told_append, htold]

theorem advance_second (h : p.Behind env s first second)
    (hgoes : p.second.Goes env p.session isFree step) :
    (p.advance .second step).Behind env s first second := by
  obtain ⟨heard, hcame, htold⟩ := h.came
  refine ⟨h.past, heard ++ step.events, hcame.goes hgoes, fun l => ?_⟩
  rw [events_advance, told_append, told_append, htold, List.append_assoc]

theorem of_results? (h : p.Behind env s first second) {r₁ r₂ : Except Error Snapshot}
    (hdone : p.results? = some (r₁, r₂)) :
    let between := (s.select env first).session
    (s.select env first).result = r₁ ∧ (between.select env second).result = r₂ ∧
      (between.select env second).session = p.session ∧
      ∀ l, told p.events l =
        told (s.select env first).events l ++ told (between.select env second).events l := by
  obtain ⟨hfirst, hsecond⟩ := results?_eq_some hdone
  obtain ⟨hpast, heard, hcame, htold⟩ := h
  rw [hfirst] at hpast
  rw [hsecond] at hcame
  cases hpast with
  | done hr =>
    have hstep := hcame.of_done
    refine ⟨hr, congrArg Step.result hstep, congrArg Step.session hstep, fun l => ?_⟩
    rw [htold, hstep]

end Behind

variable {turns : List Turn}

theorem move_inOrder (h : p.Before env s first second ∨ p.Behind env s first second)
    (hturn : p.enters env turn = true → p.first.mayAsk = true →
      (∃ root, env.absolute first = .ok root) → turn = .first) :
    (p.move env turn).Before env s first second ∨ (p.move env turn).Behind env s first second := by
  unfold enters at hturn
  obtain hstays | ⟨step, hgoes, hstep⟩ := move_cases env p turn
  · rwa [hstays]
  rw [hstep] at hturn ⊢
  cases turn with
  | first => exact h.imp (·.advance_first hgoes) (·.advance_first hgoes)
  | second =>
    obtain hbefore | hbehind := h
    · cases hlock : step.result.holdsLock with
      | false => exact Or.inl (hbefore.advance_second hgoes hlock)
      | true =>
        -- The second selection begins to scan, so the first one does not stand in its way.
        have houtside : p.second.holdsLock = false := hbefore.outside.holdsLock_eq
        have hfree : p.first.holdsLock = false := by
          obtain hlocked | hfree := hgoes.holdsLock hlock
          · rw [show (p.task .second).holdsLock = false from houtside] at hlocked
            cases hlocked
          · exact Bool.not_inj hfree
        have hask (h : p.first.mayAsk = true) (root : Path) : env.absolute first ≠ .ok root := by
          intro hroot
          have hentered : (!p.second.holdsLock && step.result.holdsLock) = true := by
            rw [houtside, hlock]
            rfl
          cases hturn hentered h ⟨root, hroot⟩
        exact Or.inr ((hbefore.behind hfree hask).advance_second hgoes)
    · exact Or.inr (hbehind.advance_second hgoes)

theorem mayAsk_of_move (h : (p.move env turn).first.mayAsk = true) :
    p.first.mayAsk = true ∧ (p.enters env turn = true → turn = .second) := by
  unfold enters
  obtain hstays | ⟨step, hgoes, hstep⟩ := move_cases env p turn
  · rw [hstays] at h ⊢
    exact ⟨h, fun hentered => by simp at hentered⟩
  rw [hstep] at h ⊢
  cases turn with
  | first =>
    obtain ⟨hask, hlock⟩ := Task.mayAsk_of_goes hgoes h
    refine ⟨hask, fun hentered => ?_⟩
    rw [task_advance, hlock, Bool.and_false] at hentered
    cases hentered
  | second => exact ⟨h, fun _ => rfl⟩

theorem run_inOrder (h : p.Before env s first second ∨ p.Behind env s first second)
    (hturns : p.first.mayAsk = true → (∃ root, env.absolute first = .ok root) →
      (p.entries env turns).head? ≠ some .second) :
    (p.run env turns).Before env s first second ∨ (p.run env turns).Behind env s first second := by
  induction turns generalizing p with
  | nil => exact h
  | cons turn rest ih =>
    have hentries (hentered : p.enters env turn = true) :
        (p.entries env (turn :: rest)).head? = some turn := by
      rw [entries, if_pos hentered, List.head?_cons]
    refine ih (move_inOrder h fun hentered hask hroot => ?_) fun hask hroot => ?_
    · have hne := hturns hask hroot
      rw [hentries hentered] at hne
      cases turn with
      | first => rfl
      | second => exact absurd rfl hne
    · -- The first selection may only begin later if it has not begun in this turn.
      obtain ⟨hbefore, hsecond⟩ := mayAsk_of_move hask
      have hne := hturns hbefore hroot
      by_cases hentered : p.enters env turn = true
      · rw [hentries hentered, hsecond hentered] at hne
        exact absurd rfl hne
      · rwa [entries, if_neg hentered] at hne

end Pair

theorem received_both (env : Environment) (s : Session) (first second : Path) (listener : Nat) :
    s.received listener [(env, .select first), (env, .select second)] =
      told (s.select env first).events listener ++
        told ((s.select env first).session.select env second).events listener := by
  rw [received_cons, received_cons]
  change told _ _ ++ (told _ _ ++ []) = _
  rw [List.append_nil]
  rfl

/-- What comes of two selections that run together in any order of their steps, in a session that
any row of operations has left behind. If the first one is the first one to scan, then all is as if
the second one had only been started afterwards. Whoever is the first one, every listener has been
told of what is published whenever none of the two scans, and both come to their end from wherever
they are. -/
theorem joined_as_one_after_other (options : ScanOptions) (interface : Interface)
    (ops : List (Environment × Operation)) (env : Environment) (first second : Path)
    (turns : List Turn) :
    let new : Session := { options, interface }
    let s := new.after ops
    let p := (s.pair first second).run env turns
    let both := [(env, .select first), (env, .select second)]
    (((∃ root, env.absolute first = .ok root) →
        ((s.pair first second).entries env turns).head? ≠ some .second) →
      ∀ r₁ r₂, p.results? = some (r₁, r₂) →
        r₁ = (s.select env first).result ∧
        r₂ = ((s.select env first).session.select env second).result ∧
        p.session = s.after both ∧ ∀ listener, told p.events listener = s.received listener both) ∧
    (p.first.holdsLock = false → p.second.holdsLock = false →
      ∀ listener < s.listeners.length, ∀ snapshot,
        (new.received listener ops ++ told p.events listener).getLast? = some snapshot →
        p.session.published = some snapshot) ∧
    ∀ schedule, Fair schedule →
      ∃ n, (p.run env (Pair.turnsOf schedule n)).results?.isSome = true := by
  intro new s p both
  refine ⟨fun hentries r₁ r₂ hdone => ?_, fun hfirst hsecond listener hl snapshot hlast => ?_, ?_⟩
  · have hbehind : p.Behind env s first second := by
      have horder := Pair.run_inOrder (Or.inl (Pair.before_pair env s first second))
        fun _ => hentries
      refine horder.elim (fun hbefore => hbefore.behind ?_ ?_) id
      · rw [(Pair.results?_eq_some hdone).1]
        rfl
      · rw [(Pair.results?_eq_some hdone).1]
        intro hask
        cases hask
    obtain ⟨h₁, h₂, hsession, htold⟩ := hbehind.of_results? hdone
    refine ⟨h₁.symm, h₂.symm, hsession.symm, fun listener => ?_⟩
    rw [htold, received_both]
  · have hcurrent := (Pair.current_pair options interface ops first second).run env turns
    refine hcurrent.published_of_told (fun turn => ?_) hl hlast
    apply Task.telling?_of_free
    cases turn with
    | first => exact hfirst
    | second => exact hsecond
  · exact fun schedule hfair => Pair.exists_results_of_fair env p hfair

theorem joined_as_one_after_other_two_folders :
    let v : Name := (Name.ofBytes? [0x76]).get rfl
    let w : Name := (Name.ofBytes? [0x77]).get rfl
    let a : Name := (Name.ofBytes? [0x61, 0x2e, 0x63, 0x73, 0x73]).get rfl
    let env : Environment :=
      { tree := { nodes := [([v], .folder), ([v, a], .file [0x2d, 0x2d, 0x78]),
          ([w], .folder), ([w, a], .file [0x2d, 0x2d, 0x79])] },
        current := some [], home := none, configHome := none }
    let s := Session.after {} [(env, .subscribe)]
    let turns : List Turn := [.second, .first, .first, .second] ++ List.replicate 4 .first ++
      List.replicate 5 .second
    let p := (s.pair [0x2f, 0x76] [0x2f, 0x77]).run env turns
    let later (n : Nat) : Turn := if n % 2 = 0 then .first else .second
    let x : Snapshot := ⟨[0x2f, 0x76], .ofList [['-', '-', 'x']]⟩
    let y : Snapshot := ⟨[0x2f, 0x77], .ofList [['-', '-', 'y']]⟩
    (s.pair [0x2f, 0x76] [0x2f, 0x77]).entries env turns = [.first, .second] ∧
    p.results? = some (.ok x, .ok y) ∧ told p.events 0 = [x, y] ∧ p.session.published = some y ∧
    ∃ n, (p.run env (Pair.turnsOf later n)).results?.isSome = true := by
  intro v w a env s turns p later x y
  have hentries : (s.pair [0x2f, 0x76] [0x2f, 0x77]).entries env turns = [.first, .second] := by
    decide +kernel
  have hdone : p.results? = some (.ok x, .ok y) := by decide +kernel
  have hfree : p.first.holdsLock = false ∧ p.second.holdsLock = false := by decide +kernel
  subst p s
  obtain ⟨hjoined, hcurrent, hends⟩ := joined_as_one_after_other {} .visible [(env, .subscribe)] env
    [0x2f, 0x76] [0x2f, 0x77] turns
  obtain ⟨-, -, -, htold⟩ := hjoined (fun _ => hentries ▸ by decide) _ _ hdone
  have htold := (htold 0).trans (show _ = [x, y] by decide +kernel)
  refine ⟨hentries, hdone, htold, ?_, hends _ fair_alternating⟩
  have hlast := hcurrent hfree.1 hfree.2 0 (by decide +kernel) y
  rw [htold] at hlast
  exact hlast (by decide +kernel)

end StyleVars.Session
