import StyleVars.Path.Absolute
import StyleVars.Proofs.Attempt

namespace StyleVars.Path

structure Plain (name : Bytes) : Prop where
  ne_nil : name ≠ []
  ne_dot : name ≠ dot
  ne_dotDot : name ≠ dotDot
  slash_notMem : slash ∉ name

/-- The path begins with a slash, and one slash stands between any two of its plain names. -/
def Normal (p : Path) : Prop := ∃ names : List Bytes, (∀ n ∈ names, Plain n) ∧ p = ofSteps names

variable {p : Path} {names : List Bytes}

theorem mem_splitOn {part : Bytes} (h : part ∈ p.splitOn slash) : slash ∉ part ∧ part ⊆ p := by
  induction p generalizing part with
  | nil =>
    obtain rfl : part = [] := by simpa using h
    exact ⟨List.not_mem_nil, List.nil_subset _⟩
  | cons b p ih =>
    cases hp : p.splitOn slash with
    | nil => exact absurd hp (List.splitOn_ne_nil slash p)
    | cons first more =>
      rw [hp] at ih
      rw [List.splitOn_cons_eq_if_modifyHead, hp] at h
      split at h
      case isTrue hb =>
        obtain rfl | h := List.mem_cons.1 h
        · exact ⟨List.not_mem_nil, List.nil_subset _⟩
        · exact ⟨(ih h).1, List.subset_cons_of_subset b (ih h).2⟩
      case isFalse hb =>
        rw [List.modifyHead_cons] at h
        obtain rfl | h := List.mem_cons.1 h
        · have hne : slash ≠ b := fun heq => hb (by simp [heq])
          obtain ⟨hslash, hsub⟩ := ih List.mem_cons_self
          exact ⟨List.not_mem_cons_of_ne_of_not_mem hne hslash, List.cons_subset_cons b hsub⟩
        · obtain ⟨hslash, hsub⟩ := ih (List.mem_cons_of_mem _ h)
          exact ⟨hslash, List.subset_cons_of_subset b hsub⟩

theorem mem_steps {name : Bytes} (h : name ∈ p.steps) :
    name ≠ [] ∧ name ≠ dot ∧ slash ∉ name := by
  obtain ⟨hmem, hname⟩ := List.mem_filter.1 h
  simp only [Bool.and_eq_true, Bool.not_eq_true', List.isEmpty_eq_false_iff, bne_iff_ne] at hname
  exact ⟨hname.1, hname.2, (mem_splitOn hmem).1⟩

theorem subset_of_mem_steps {name : Bytes} (h : name ∈ p.steps) : name ⊆ p :=
  (mem_splitOn (List.mem_of_mem_filter h)).2

theorem mem_foldl_walkStep {steps above : List Bytes} {name : Bytes}
    (h : name ∈ steps.foldl walkStep above) : name ∈ above ∨ name ∈ steps ∧ name ≠ dotDot := by
  induction steps generalizing above with
  | nil => exact Or.inl h
  | cons step steps ih =>
    obtain h | ⟨h, hne⟩ := ih h
    · unfold walkStep at h
      split at h
      case isTrue hstep => exact Or.inl (List.mem_of_mem_drop h)
      case isFalse hstep =>
        obtain rfl | h := List.mem_cons.1 h
        · exact Or.inr ⟨List.mem_cons_self, hstep⟩
        · exact Or.inl h
    · exact Or.inr ⟨List.mem_cons_of_mem _ h, hne⟩

theorem foldl_walkStep_of_down (h : dotDot ∉ names) (above : List Bytes) :
    names.foldl walkStep above = names.reverse ++ above := by
  induction names generalizing above with
  | nil => rfl
  | cons n names ih =>
    obtain ⟨hne, hrest⟩ := not_or.1 (mt List.mem_cons.2 h)
    have hn : walkStep above n = n :: above := if_neg (Ne.symm hne)
    rw [List.foldl_cons, hn, ih hrest]
    simp

theorem dotDot_notMem_of_plain (h : ∀ n ∈ names, Plain n) : dotDot ∉ names :=
  fun hmem => (h dotDot hmem).ne_dotDot rfl

theorem normal_clean (p : Path) : Normal p.clean := by
  refine ⟨_, fun n hn => ?_, rfl⟩
  obtain h | ⟨h, hne⟩ := mem_foldl_walkStep (List.mem_reverse.1 hn)
  · cases h
  · obtain ⟨hnil, hdot, hslash⟩ := mem_steps h
    exact ⟨hnil, hdot, hne, hslash⟩

theorem splitOn_names (h : ∀ n ∈ names, Plain n) {first : Bytes} (hfirst : slash ∉ first) :
    (first ++ names.flatMap (slash :: ·)).splitOn slash = first :: names := by
  induction names generalizing first with
  | nil =>
    rw [List.flatMap_nil, List.append_nil]
    exact List.splitOn_eq_singleton hfirst
  | cons n names ih =>
    have hn : slash ∉ n := (h n List.mem_cons_self).slash_notMem
    rw [List.flatMap_cons, List.cons_append, List.splitOn_append_cons_self,
      List.splitOn_eq_singleton hfirst, ih (fun m hm => h m (List.mem_cons_of_mem _ hm)) hn]
    rfl

theorem splitOn_ofSteps (h : ∀ n ∈ names, Plain n) :
    (ofSteps names).splitOn slash = [] :: if names = [] then [[]] else names := by
  cases names with
  | nil => decide
  | cons n names => exact splitOn_names h List.not_mem_nil

theorem steps_ofSteps (h : ∀ n ∈ names, Plain n) : (ofSteps names).steps = names := by
  have hkeep : names.filter (fun s => !s.isEmpty && s != dot) = names :=
    List.filter_eq_self.2 fun n hn => by simp [(h n hn).ne_nil, (h n hn).ne_dot]
  rw [steps, splitOn_ofSteps h]
  split
  case isTrue hnil =>
    subst hnil
    rfl
  case isFalse => rwa [List.filter_cons_of_neg (by simp)]

theorem isAbsolute_ofSteps (names : List Bytes) : (ofSteps names).isAbsolute = true := by
  cases names <;> rfl

namespace Normal

theorem isAbsolute (h : Normal p) : p.isAbsolute = true := by
  obtain ⟨names, -, rfl⟩ := h
  exact isAbsolute_ofSteps names

theorem dot_notMem (h : Normal p) : dot ∉ p.splitOn slash := by
  obtain ⟨names, hnames, rfl⟩ := h
  rw [splitOn_ofSteps hnames]
  split
  case isTrue => decide
  case isFalse => exact fun hmem => (hnames _ (List.mem_of_ne_of_mem (by decide) hmem)).ne_dot rfl

theorem dotDot_notMem (h : Normal p) : dotDot ∉ p.splitOn slash := by
  obtain ⟨names, hnames, rfl⟩ := h
  rw [splitOn_ofSteps hnames]
  split
  case isTrue => decide
  case isFalse =>
    intro hmem
    exact (hnames _ (List.mem_of_ne_of_mem (by decide) hmem)).ne_dotDot rfl

theorem clean_eq (h : Normal p) : p.clean = p := by
  obtain ⟨names, hnames, rfl⟩ := h
  rw [clean, steps_ofSteps hnames, foldl_walkStep_of_down (dotDot_notMem_of_plain hnames),
    List.append_nil, List.reverse_reverse]

theorem expandUser_eq (h : Normal p) (home : Option Path) : p.expandUser home = p := by
  obtain ⟨names, hnames, rfl⟩ := h
  unfold expandUser
  rw [splitOn_ofSteps hnames]
  cases home with
  | none => rfl
  | some home => exact if_neg (by decide)

theorem absolute_eq (h : Normal p) (home : Option Path) (current : Except IoError Path) :
    p.absolute home current = .ok p := by
  rw [absolute, h.expandUser_eq, if_pos h.isAbsolute, h.clean_eq]
  rfl

end Normal

theorem normal_of_absolute {home : Option Path} {current : Except IoError Path} {root : Path}
    (h : p.absolute home current = .ok root) : Normal root := by
  unfold absolute at h
  generalize p.expandUser home = q at h
  by_cases hq : q.isAbsolute
  · rw [if_pos hq] at h
    exact Except.ok.inj h ▸ normal_clean q
  · rw [if_neg hq] at h
    obtain ⟨folder, -, h⟩ := Attempt.bind_eq_ok.1 h
    exact Except.ok.inj h ▸ normal_clean (folder.join q)

end StyleVars.Path
