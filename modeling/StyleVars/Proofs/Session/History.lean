import StyleVars.Proofs.Session.Run

namespace StyleVars.Session

variable {env : Environment} {s : Session}

/-- No listener is told of anything. -/
def Quiet (events : List Event) : Prop := ∀ listener snapshot, .updated listener snapshot ∉ events

theorem quiet_nil : Quiet [] := fun _ _ => List.not_mem_nil

theorem quiet_report (i : Interface) (notice : Notice) : Quiet (i.report notice) := by
  cases i <;> simp [Quiet, Interface.report]

theorem quiet_askFolder (i : Interface) (title : String) : Quiet (i.askFolder title) := by
  cases i <;> simp [Quiet, Interface.askFolder]

theorem Quiet.append {xs ys : List Event} (hx : Quiet xs) (hy : Quiet ys) : Quiet (xs ++ ys) := by
  intro listener snapshot h
  obtain h | h := List.mem_append.1 h
  · exact hx listener snapshot h
  · exact hy listener snapshot h

theorem scanAndPublish_cases (env : Environment) (s : Session) (root : Path) :
    (∃ properties, Scan.scan env s.options root = .ok properties ∧
      s.scanAndPublish env root = s.publish ⟨root, properties⟩) ∨
    ∃ e, Scan.scan env s.options root = .error e ∧ s.scanAndPublish env root = s.fail root e := by
  unfold scanAndPublish
  cases h : Scan.scan env s.options root with
  | ok properties => exact Or.inl ⟨properties, rfl, rfl⟩
  | error e => exact Or.inr ⟨e, rfl, rfl⟩

theorem select_cases (env : Environment) (s : Session) (path : Path) :
    (∃ snapshot : Snapshot, env.absolute path = .ok snapshot.root ∧
      Scan.scan env s.options snapshot.root = .ok snapshot.properties ∧
      s.select env path = s.publish snapshot) ∨
    ∃ place e, s.select env path = s.fail place e := by
  unfold select
  cases env.absolute path with
  | error cause => exact Or.inr ⟨path, .io cause, rfl⟩
  | ok root =>
    obtain ⟨properties, hscan, h⟩ | ⟨e, -, h⟩ := scanAndPublish_cases env s root
    · exact Or.inl ⟨⟨root, properties⟩, rfl, hscan, h⟩
    · exact Or.inr ⟨root, e, h⟩

/-- All that an operation can do. It registers a listener, or it publishes the result of one scan
and tells every listener, or it leaves the session as it is and tells none. What is scanned is a
path that has been made absolute, or the root that is published already. -/
inductive Effect (env : Environment) (s : Session) : Operation → Step Answer → Prop where
  | registered :
      Effect env s .subscribe ⟨.registered s.listeners.length,
        { s with listeners := s.listeners ++ [s.listeners.length] }, []⟩
  | published {op : Operation} {snapshot : Snapshot} {asked : List Event}
      (hop : op ≠ .subscribe)
      (hscan : Scan.scan env s.options snapshot.root = .ok snapshot.properties)
      (hasked : Quiet asked)
      (hroot : (∃ path, env.absolute path = .ok snapshot.root) ∨ s.root = some snapshot.root) :
      Effect env s op ⟨.scanned (.ok (some snapshot)), { s with published := some snapshot },
        asked ++ s.listeners.map (.updated · snapshot)⟩
  | unchanged {op : Operation} {answer : Answer} {events : List Event}
      (hop : op ≠ .subscribe) (hanswer : answer.snapshot? = none) (hevents : Quiet events) :
      Effect env s op ⟨answer, s, events⟩

theorem effect_select {op : Operation} (hop : op ≠ .subscribe) {asked : List Event}
    (hasked : Quiet asked) (path : Path) :
    Effect env s op ⟨.scanned (s.select env path).some.result, (s.select env path).session,
      asked ++ (s.select env path).events⟩ := by
  obtain ⟨snapshot, hroot, hscan, h⟩ | ⟨place, e, h⟩ := select_cases env s path
  · rw [h]
    exact .published hop hscan hasked (Or.inl ⟨path, hroot⟩)
  · rw [h]
    exact .unchanged hop rfl (hasked.append (quiet_report _ _))

theorem perform_effect (env : Environment) (s : Session) (op : Operation) :
    Effect env s op (s.perform env op) := by
  cases op with
  | subscribe => exact .registered
  | select path => exact effect_select (by simp) quiet_nil path
  | choose picked =>
    have hasked := quiet_askFolder s.interface "Select CSS Folder"
    simp only [perform, choose]
    split
    · exact .unchanged (by simp) rfl hasked
    · exact .unchanged (by simp) rfl hasked
    · exact .unchanged (by simp) rfl hasked
    · exact effect_select (by simp) hasked _
  | refresh =>
    simp only [perform, refresh]
    cases hroot : s.root with
    | none => exact .unchanged (by simp) rfl quiet_nil
    | some root =>
      obtain ⟨properties, hscan, h⟩ | ⟨e, -, h⟩ := scanAndPublish_cases env s root
      · simp only [h]
        have hpublished : Effect env s .refresh ⟨.scanned (.ok (some ⟨root, properties⟩)),
            { s with published := some ⟨root, properties⟩ },
            [] ++ s.listeners.map (.updated · ⟨root, properties⟩)⟩ :=
          .published (by simp) hscan quiet_nil (Or.inr hroot)
        exact hpublished
      · simp only [h]
        exact .unchanged (by simp) rfl (quiet_report _ _)
  | filter term => exact .unchanged (by simp) rfl quiet_nil
  | insert focused property => exact .unchanged (by simp) rfl quiet_nil

variable {op : Operation} {step : Step Answer} {listener : Nat}

theorem Effect.options_eq (h : Effect env s op step) : step.session.options = s.options := by
  cases h <;> rfl

theorem Effect.published_eq (h : Effect env s op step) :
    step.session.published = step.result.snapshot?.or s.published := by
  cases h with
  | registered => rfl
  | published hop hscan hasked => rfl
  | unchanged hop hanswer hevents => simp [hanswer]

/-- The listeners have their numbers in the order of their registration, so that no two of them
share one. -/
def Numbered (s : Session) : Prop := s.listeners = List.range s.listeners.length

theorem Effect.numbered (h : Effect env s op step) (hs : s.Numbered) : step.session.Numbered := by
  cases h with
  | registered =>
    unfold Numbered at hs ⊢
    rw [List.length_append, List.length_singleton, List.range_succ, ← hs]
  | published hop hscan hasked => exact hs
  | unchanged hop hanswer hevents => exact hs

theorem Effect.length_listeners_le (h : Effect env s op step) :
    s.listeners.length ≤ step.session.listeners.length := by
  cases h <;> simp

theorem Quiet.updates_eq_nil {events : List Event} (h : Quiet events) (listener : Nat) :
    events.filterMap (Event.updateFor? listener) = [] := by
  rw [List.filterMap_eq_nil_iff]
  intro event hevent
  cases event with
  | shown notice => rfl
  | folderAsked title => rfl
  | updated l snapshot => exact absurd hevent (h l snapshot)

theorem updates_range (n listener : Nat) (snapshot : Snapshot) :
    ((List.range n).map (Event.updated · snapshot)).filterMap (Event.updateFor? listener) =
      if listener < n then [snapshot] else [] := by
  induction n with
  | zero => rfl
  | succ n ih =>
    rw [List.range_succ, List.map_append, List.filterMap_append, ih]
    by_cases hn : n = listener
    · subst hn
      simp [Event.updateFor?]
    · have hlt : listener < n + 1 ↔ listener < n := by omega
      simp [Event.updateFor?, hn, hlt]

theorem Effect.updates_eq (h : Effect env s op step) (hs : s.Numbered) (listener : Nat) :
    step.events.filterMap (Event.updateFor? listener) =
      if listener < s.listeners.length then step.result.snapshot?.toList else [] := by
  cases h with
  | registered => simp [Answer.snapshot?]
  | published hop hscan hasked =>
    -- The question for a folder brings no update, and no two listeners share a number.
    rw [List.filterMap_append, hasked.updates_eq_nil, List.nil_append, hs, updates_range]
    simp [Answer.snapshot?]
  | unchanged hop hanswer hevents => simp [hanswer, hevents.updates_eq_nil]

variable {ops : List (Environment × Operation)}

theorem after_append (s : Session) (xs ys : List (Environment × Operation)) :
    s.after (xs ++ ys) = (s.after xs).after ys := by
  induction xs generalizing s with
  | nil => rfl
  | cons x xs ih => exact ih _

theorem returned_cons (s : Session) (env : Environment) (op : Operation)
    (rest : List (Environment × Operation)) :
    s.returned ((env, op) :: rest) =
      (s.perform env op).result.snapshot?.toList ++ (s.perform env op).session.returned rest := by
  rw [returned, run, List.filterMap_cons]
  cases (s.perform env op).result.snapshot? <;> rfl

theorem received_cons (s : Session) (listener : Nat) (env : Environment) (op : Operation)
    (rest : List (Environment × Operation)) :
    s.received listener ((env, op) :: rest) =
      (s.perform env op).events.filterMap (Event.updateFor? listener) ++
        (s.perform env op).session.received listener rest := by
  simp only [received, run, List.flatMap_cons, List.filterMap_append]

theorem received_append (s : Session) (listener : Nat) (xs ys : List (Environment × Operation)) :
    s.received listener (xs ++ ys) =
      s.received listener xs ++ (s.after xs).received listener ys := by
  induction xs generalizing s with
  | nil => rfl
  | cons x xs ih =>
    obtain ⟨env, op⟩ := x
    rw [List.cons_append, received_cons, received_cons, ih, List.append_assoc]
    rfl

theorem after_options (s : Session) (ops : List (Environment × Operation)) :
    (s.after ops).options = s.options := by
  induction ops generalizing s with
  | nil => rfl
  | cons x rest ih =>
    obtain ⟨env, op⟩ := x
    exact (ih _).trans (perform_effect env s op).options_eq

theorem numbered_after (hs : s.Numbered) (ops : List (Environment × Operation)) :
    (s.after ops).Numbered := by
  induction ops generalizing s with
  | nil => exact hs
  | cons x rest ih =>
    obtain ⟨env, op⟩ := x
    exact ih ((perform_effect env s op).numbered hs)

theorem length_listeners_le_after (s : Session) (ops : List (Environment × Operation)) :
    s.listeners.length ≤ (s.after ops).listeners.length := by
  induction ops generalizing s with
  | nil => exact Nat.le_refl _
  | cons x rest ih =>
    obtain ⟨env, op⟩ := x
    exact Nat.le_trans (perform_effect env s op).length_listeners_le (ih _)

theorem published_after (s : Session) (ops : List (Environment × Operation)) :
    (s.after ops).published = (s.returned ops).getLast?.or s.published := by
  induction ops generalizing s with
  | nil => rfl
  | cons x rest ih =>
    obtain ⟨env, op⟩ := x
    change ((s.perform env op).session.after rest).published = _
    rw [ih, (perform_effect env s op).published_eq, returned_cons, List.getLast?_append,
      Option.or_assoc]
    cases (s.perform env op).result.snapshot? <;> rfl

theorem received_eq_returned (hs : s.Numbered) (hl : listener < s.listeners.length)
    (ops : List (Environment × Operation)) : s.received listener ops = s.returned ops := by
  induction ops generalizing s with
  | nil => rfl
  | cons x rest ih =>
    obtain ⟨env, op⟩ := x
    have h := perform_effect env s op
    rw [received_cons, returned_cons, h.updates_eq hs, if_pos hl,
      ih (h.numbered hs) (Nat.lt_of_lt_of_le hl h.length_listeners_le)]

theorem received_eq_nil (hs : s.Numbered) (hl : (s.after ops).listeners.length ≤ listener) :
    s.received listener ops = [] := by
  induction ops generalizing s with
  | nil => rfl
  | cons x rest ih =>
    obtain ⟨env, op⟩ := x
    have h := perform_effect env s op
    have hn : ¬ listener < s.listeners.length := by
      have hle := length_listeners_le_after s ((env, op) :: rest)
      omega
    rw [received_cons, h.updates_eq hs, if_neg hn, ih (h.numbered hs) hl]
    rfl

theorem published_of_received (hs : s.Numbered) {snapshot : Snapshot}
    (h : (s.received listener ops).getLast? = some snapshot) :
    (s.after ops).published = some snapshot := by
  induction ops generalizing s with
  | nil => cases h
  | cons x rest ih =>
    obtain ⟨env, op⟩ := x
    by_cases hl : listener < s.listeners.length
    · rw [received_eq_returned hs hl] at h
      rw [published_after, h]
      rfl
    · have heffect := perform_effect env s op
      rw [received_cons, heffect.updates_eq hs, if_neg hl] at h
      exact ih (heffect.numbered hs) h

/-- What holds after any row of operations on a new session, whatever happens to the files and to
the current folder in between. -/
theorem published_and_received (options : ScanOptions) (interface : Interface)
    (ops : List (Environment × Operation)) :
    let s : Session := { options, interface }
    (s.after ops).published = (s.returned ops).getLast? ∧
    (∀ before env op rest, ops = before ++ (env, op) :: rest →
      let step := (s.after before).perform env op
      (∀ snapshot, step.result.snapshot? = some snapshot →
        Scan.scan env options snapshot.root = .ok snapshot.properties) ∧
      (op ≠ .subscribe → step.result.snapshot? = none →
        step.session = s.after before ∧
        ∀ listener snapshot, .updated listener snapshot ∉ step.events)) ∧
    (∀ before env rest, ops = before ++ (env, .subscribe) :: rest →
      ∃ listener, ((s.after before).perform env .subscribe).result = .registered listener ∧
        s.received listener ops = (s.after (before ++ [(env, .subscribe)])).returned rest) := by
  intro s
  have hs : s.Numbered := rfl
  refine ⟨?_, ?_, ?_⟩
  · rw [published_after, Option.or_none]
  · intro before env op rest hops step
    have h : Effect env (s.after before) op step := perform_effect env (s.after before) op
    have ho : (s.after before).options = options := after_options s before
    refine ⟨fun snapshot hsnapshot => ?_, fun hop hnone => ?_⟩
    · generalize step = t at h hsnapshot
      cases h with
      | registered => simp [Answer.snapshot?] at hsnapshot
      | published hop hscan hasked =>
        obtain rfl := Option.some.inj hsnapshot
        exact ho ▸ hscan
      | unchanged hop hanswer hevents => simp [hanswer] at hsnapshot
    · generalize step = t at h hnone
      cases h with
      | registered => exact absurd rfl hop
      | published hop hscan hasked => simp [Answer.snapshot?] at hnone
      | unchanged hop hanswer hevents => exact ⟨rfl, hevents⟩
  · intro before env rest hops
    have hbefore : (s.after before).Numbered := numbered_after hs before
    have h := perform_effect env (s.after before) .subscribe
    refine ⟨(s.after before).listeners.length, rfl, ?_⟩
    rw [hops, received_append, received_eq_nil hs (Nat.le_refl _), received_cons, after_append]
    exact received_eq_returned (h.numbered hbefore) (by simp [perform, subscribe, Step.map]) rest

theorem published_and_received_gone_folder :
    let w : Name := (Name.ofBytes? [0x77]).get rfl
    let a : Name := (Name.ofBytes? [0x61, 0x2e, 0x63, 0x73, 0x73]).get rfl
    let there : Environment :=
      { tree := { nodes := [([w], .folder), ([w, a], .file [0x2d, 0x2d, 0x78])] },
        current := some [], home := none, configHome := none }
    let gone : Environment := { there with tree := .empty }
    let first : List (Environment × Operation) :=
      [(there, .subscribe), (there, .select [0x2f, 0x77])]
    let ops := first ++ (gone, .refresh) :: [(there, .subscribe), (there, .refresh)]
    let s : Session := {}
    let x : Snapshot := ⟨[0x2f, 0x77], .ofList [['-', '-', 'x']]⟩
    (s.after ops).published = some x ∧
    ((s.after first).perform gone .refresh).session = s.after first ∧
    s.received 0 ops = [x, x] ∧ s.received 1 ops = [x] := by
  intro w a there gone first ops s x
  obtain ⟨hpublished, hsteps, hlisteners⟩ := published_and_received {} .visible ops
  refine ⟨hpublished.trans (by decide +kernel), ?_, ?_, ?_⟩
  · exact ((hsteps first gone .refresh _ rfl).2 (by simp) (by decide +kernel)).1
  · obtain ⟨listener, hl, h⟩ := hlisteners [] there _ rfl
    obtain rfl : 0 = listener := Answer.registered.inj hl
    exact h.trans (by decide +kernel)
  · obtain ⟨listener, hl, h⟩ := hlisteners (first ++ [(gone, .refresh)]) there _ rfl
    obtain rfl : 1 = listener := Answer.registered.inj hl
    exact h.trans (by decide +kernel)

end StyleVars.Session
