import StyleVars.Proofs.Environment.Spelling
import StyleVars.Session.Basic

namespace StyleVars

namespace Path

open FileTree (spelled)

variable {home : Option Path} {current : Except IoError Path} {a b p q : Path}
  {names : List Bytes}

theorem isAbsolute_join_relative (hb : b.isAbsolute = false) (p : Path) :
    (p.join b).isAbsolute = p.isAbsolute := by
  cases p with
  | nil =>
    have hjoin : join [] b = b := by simp [join]
    rw [hjoin, hb]
    rfl
  | cons c p =>
    rw [join, if_neg (by simp [hb])]
    split <;> rfl

theorem steps_join_relative (hb : b.isAbsolute = false) (p : Path) :
    (p.join b).steps = p.steps ++ b.steps := by
  cases p with
  | nil => simp [join, steps]
  | cons c p => exact steps_join (List.cons_ne_nil c p) hb

theorem isAbsolute_of_slash_notMem (h : slash ∉ p) : p.isAbsolute = false := by
  cases p with
  | nil => rfl
  | cons c p =>
    have hc : c ≠ slash := fun heq => h (heq ▸ List.mem_cons_self)
    simpa [isAbsolute] using hc

theorem foldl_join (h : ∀ n ∈ names, n ≠ [] ∧ n ≠ dot ∧ slash ∉ n) (p : Path) :
    (names.foldl join p).isAbsolute = p.isAbsolute ∧
      (names.foldl join p).steps = p.steps ++ names := by
  induction names generalizing p with
  | nil => simp
  | cons n names ih =>
    obtain ⟨hnil, hdot, hslash⟩ := h n List.mem_cons_self
    have hn : isAbsolute n = false := isAbsolute_of_slash_notMem hslash
    have hsteps : steps n = [n] := by simp [steps, List.splitOn_eq_singleton hslash, hnil, hdot]
    obtain ⟨habsolute, hnames⟩ := ih (fun m hm => h m (List.mem_cons_of_mem n hm)) (p.join n)
    constructor
    · rw [List.foldl_cons, habsolute, isAbsolute_join_relative hn]
    · rw [List.foldl_cons, hnames, steps_join_relative hn, hsteps, List.append_assoc]
      rfl

theorem expandUser_of_tilde (h : (p.splitOn slash).head? = some tilde) (folder : Path) :
    p.expandUser (some folder) = (p.steps.drop 1).foldl join folder := by
  obtain ⟨rest, hsplit⟩ := List.head?_eq_some_iff.1 h
  unfold expandUser
  rw [hsplit]
  exact if_pos rfl

theorem expandUser_of_not_tilde (h : (p.splitOn slash).head? ≠ some tilde) (home : Option Path) :
    p.expandUser home = p := by
  unfold expandUser
  split
  case h_1 first rest folder hsplit =>
    rw [hsplit] at h
    exact if_neg fun heq => h (congrArg some heq)
  case h_2 => rfl

theorem expandUser_none (p : Path) : p.expandUser none = p := by
  unfold expandUser
  split
  case h_1 hnone => cases hnone
  case h_2 => rfl

theorem expandUser_of_isAbsolute (h : p.isAbsolute = true) (home : Option Path) :
    p.expandUser home = p := by
  apply expandUser_of_not_tilde
  obtain ⟨rest, rfl⟩ := List.head?_eq_some_iff.1 (eq_of_beq h)
  rw [← List.nil_append (slash :: rest), List.splitOn_append_cons_self, List.splitOn_nil]
  exact mt Option.some.inj (by decide)

theorem expandUser_eq_or_isAbsolute (hhome : ∀ folder ∈ home, folder.isAbsolute = true)
    (p : Path) : p.expandUser home = p ∨ (p.expandUser home).isAbsolute = true := by
  by_cases h : (p.splitOn slash).head? = some tilde
  · cases home with
    | none => exact Or.inl (expandUser_none p)
    | some folder =>
      right
      rw [expandUser_of_tilde h, (foldl_join ?_ folder).1]
      · exact hhome folder rfl
      · exact fun n hn => mem_steps (List.mem_of_mem_drop hn)
  · exact Or.inl (expandUser_of_not_tilde h home)

theorem expandUser_expandUser (hhome : ∀ folder ∈ home, folder.isAbsolute = true) (p : Path) :
    (p.expandUser home).expandUser home = p.expandUser home := by
  obtain h | h := expandUser_eq_or_isAbsolute hhome p
  · rw [h, h]
  · exact expandUser_of_isAbsolute h home

theorem head?_splitOn_join (ha : a ≠ []) (hb : b.isAbsolute = false) :
    ((a.join b).splitOn slash).head? = (a.splitOn slash).head? := by
  rw [join, if_neg (by simp [ha, hb])]
  split
  case isTrue hlast =>
    obtain ⟨a, rfl⟩ := List.getLast?_eq_some_iff.1 (eq_of_beq hlast)
    rw [List.append_assoc, List.singleton_append, List.splitOn_append_cons_self,
      List.splitOn_append_cons_self, List.head?_append_of_ne_nil _ (List.splitOn_ne_nil _ _),
      List.head?_append_of_ne_nil _ (List.splitOn_ne_nil _ _)]
  case isFalse =>
    rw [List.splitOn_append_cons_self, List.head?_append_of_ne_nil _ (List.splitOn_ne_nil _ _)]

theorem expandUser_join (ha : a ≠ []) (hb : b.isAbsolute = false) (home : Option Path) :
    ((a.join b).expandUser home).isAbsolute = (a.expandUser home).isAbsolute ∧
      ((a.join b).expandUser home).steps = (a.expandUser home).steps ++ b.steps := by
  have hhead := head?_splitOn_join ha hb
  by_cases h : (a.splitOn slash).head? = some tilde
  · cases home with
    | none =>
      rw [expandUser_none, expandUser_none]
      exact ⟨isAbsolute_join_relative hb a, steps_join_relative hb a⟩
    | some folder =>
      -- The step that is dropped is the `~` of the first path.
      have hsteps : (a.join b).steps.drop 1 = a.steps.drop 1 ++ b.steps := by
        obtain ⟨rest, hsplit⟩ := List.head?_eq_some_iff.1 h
        have htilde : a.steps = tilde :: a.steps.drop 1 := by
          rw [steps, hsplit, List.filter_cons_of_pos (by decide)]
          rfl
        rw [steps_join_relative hb, htilde]
        rfl
      have hmem : ∀ n ∈ b.steps, n ≠ [] ∧ n ≠ dot ∧ slash ∉ n := fun n hn => mem_steps hn
      rw [expandUser_of_tilde (hhead.trans h), expandUser_of_tilde h, hsteps, List.foldl_append]
      exact foldl_join hmem _
  · rw [expandUser_of_not_tilde h, expandUser_of_not_tilde (hhead ▸ h)]
    exact ⟨isAbsolute_join_relative hb a, steps_join_relative hb a⟩

theorem clean_congr (h : p.steps = q.steps) : p.clean = q.clean := by rw [clean, clean, h]

theorem steps_clean (p : Path) : p.clean.steps = spelled [] p.steps := by
  have hplain : ∀ n ∈ spelled [] p.steps, Plain n := plain_spelled
  exact steps_ofSteps hplain

theorem clean_join (hb : b.isAbsolute = false) (p : Path) : (p.join b).clean =
    ofSteps (b.steps.foldl walkStep p.clean.steps.reverse).reverse := by
  rw [clean, steps_join_relative hb, List.foldl_append, steps_clean, spelled, List.reverse_reverse]
  rfl

theorem clean_join_clean (hb : b.isAbsolute = false) (p : Path) :
    (p.clean.join b).clean = (p.join b).clean := by
  rw [clean_join hb, clean_join hb, (normal_clean p).clean_eq]

theorem absolute_of_isAbsolute (h : p.isAbsolute = true) (home : Option Path)
    (current : Except IoError Path) : p.absolute home current = .ok p.clean := by
  rw [absolute, expandUser_of_isAbsolute h, if_pos h]
  rfl

theorem absolute_eq_error {cause : IoError} : p.absolute home current = .error cause ↔
    (p.expandUser home).isAbsolute = false ∧ current = .error cause := by
  rw [absolute]
  cases h : (p.expandUser home).isAbsolute with
  | true => simp [pure, Except.pure]
  | false => cases current <;> simp [bind, Except.bind, pure, Except.pure]

theorem exists_absolute_eq_clean (ha : a ≠ []) (h : a.absolute home current = .ok q) :
    ∃ p : Path, q = p.clean ∧ ∀ b : Path, b.isAbsolute = false →
      (a.join b).absolute home current = .ok (p.join b).clean := by
  rw [absolute] at h
  cases habsolute : (a.expandUser home).isAbsolute with
  | true =>
    rw [if_pos habsolute] at h
    refine ⟨a.expandUser home, (Except.ok.inj h).symm, fun b hb => ?_⟩
    obtain ⟨habsolute', hsteps⟩ := expandUser_join ha hb home
    rw [absolute, if_pos (habsolute'.trans habsolute)]
    exact congrArg _ (clean_congr (hsteps.trans (steps_join_relative hb _).symm))
  | false =>
    rw [if_neg (by simp [habsolute])] at h
    obtain ⟨folder, rfl, h⟩ := Attempt.bind_eq_ok.1 h
    refine ⟨folder.join (a.expandUser home), (Except.ok.inj h).symm, fun b hb => ?_⟩
    obtain ⟨habsolute', hsteps⟩ := expandUser_join ha hb home
    have hrelative := habsolute'.trans habsolute
    rw [absolute, if_neg (by simp [hrelative])]
    refine congrArg Except.ok (clean_congr ?_)
    rw [steps_join_relative hrelative, steps_join_relative hb, steps_join_relative habsolute,
      hsteps, List.append_assoc]

theorem Normal.ends_by_name (h : Normal q) (hq : q ≠ [slash]) :
    [] ∉ (q.splitOn slash).tail ∧ q.getLast? ≠ some slash := by
  obtain ⟨names, hnames, rfl⟩ := h
  have hnil : names ≠ [] := fun heq => hq (heq ▸ rfl)
  constructor
  · rw [splitOn_ofSteps hnames, if_neg hnil]
    exact fun hmem => (hnames [] hmem).ne_nil rfl
  · exact getLast?_ofSteps_ne hnames hnil

end Path

theorem Session.select_expandUser {env : Environment}
    (hhome : ∀ folder ∈ env.home, folder.isAbsolute = true) (s : Session) (p : Path) :
    s.select env (p.expandUser env.home) = s.select env p := by
  obtain h | h := Path.expandUser_eq_or_isAbsolute hhome p
  · rw [h]
  · have hroot : env.absolute p = .ok (p.expandUser env.home).clean := by
      rw [Environment.absolute, Path.absolute, if_pos h]
      rfl
    have hroot' : env.absolute (p.expandUser env.home) = .ok (p.expandUser env.home).clean :=
      Path.absolute_of_isAbsolute h env.home env.currentPath
    rw [Session.select, Session.select, hroot, hroot']

namespace Path

/-- Making a path absolute fails only for want of a current folder. What it gives is absolute, with
no names that are empty, `.` or `..`, and stays as it is when it is made absolute again. Putting in
the home folder beforehand changes nothing, so a folder picker may do so. -/
theorem absolute_normalises (home : Option Path) (current : Except IoError Path) (p : Path) :
    (∀ cause, p.absolute home current = .error cause ↔
      (p.expandUser home).isAbsolute = false ∧ current = .error cause) ∧
    (∀ q, p.absolute home current = .ok q →
      (q.isAbsolute = true ∧ dot ∉ q.splitOn slash ∧ dotDot ∉ q.splitOn slash ∧
        (q ≠ [slash] → [] ∉ (q.splitOn slash).tail ∧ q.getLast? ≠ some slash)) ∧
      ∀ home' current', q.absolute home' current' = .ok q) ∧
    ((∀ folder ∈ home, folder.isAbsolute = true) →
      (p.expandUser home).absolute home current = p.absolute home current ∧
      ∀ (env : Environment) (s : Session), env.home = home →
        s.choose env (.ok (some (p.expandUser home))) = s.choose env (.ok (some p))) := by
  refine ⟨fun cause => absolute_eq_error, fun q h => ?_, fun hhome => ⟨?_, ?_⟩⟩
  · have hq := normal_of_absolute h
    exact ⟨⟨hq.isAbsolute, hq.dot_notMem, hq.dotDot_notMem, hq.ends_by_name⟩, hq.absolute_eq⟩
  · rw [absolute, expandUser_expandUser hhome, absolute]
  · rintro env s rfl
    cases hinterface : s.interface with
    | headless => simp only [Session.choose, hinterface]
    | visible => simp only [Session.choose, hinterface, Session.select_expandUser hhome]

theorem absolute_normalises_above_home :
    let home : Path := ofText "/h/".toList
    let p : Path := ofText "~/../..//x/./~/".toList
    let q : Path := ofText "/x/~".toList
    (∀ folder ∈ some home, folder.isAbsolute = true) ∧
    p.absolute (some home) (.error (.fault .missing)) = .ok q ∧
    dotDot ∉ q.splitOn slash ∧ q.getLast? ≠ some slash ∧
    q.absolute (some [0x7e]) (.ok home) = .ok q ∧
    (p.expandUser (some home)).absolute (some home) (.error (.fault .missing)) = .ok q := by
  intro home p q
  obtain ⟨-, hnormal, hexpanded⟩ :=
    absolute_normalises (some home) (.error (.fault .missing)) p
  have hhome : ∀ folder ∈ some home, folder.isAbsolute = true := by
    rintro folder ⟨⟩
    decide +kernel
  have hq : p.absolute (some home) (.error (.fault .missing)) = .ok q := by decide +kernel
  obtain ⟨⟨-, -, hdotDot, hends⟩, hagain⟩ := hnormal q hq
  exact ⟨hhome, hq, hdotDot, (hends (by decide +kernel)).2, hagain _ _,
    (hexpanded hhome).1.trans hq⟩

/-- A relative path that stands behind another is made absolute with it, or behind what the other
path is made into, whatever the home folder and the current folder are by then. Its steps go on from
there, and `..` goes up no further than to the top. -/
theorem absolute_join (home : Option Path) (current : Except IoError Path) {a b q : Path}
    (ha : a ≠ []) (hb : b.isAbsolute = false) (h : a.absolute home current = .ok q) :
    ∃ r : Path, (a.join b).absolute home current = .ok r ∧
      (∀ home' current', (q.join b).absolute home' current' = .ok r) ∧
      r = ofSteps (b.steps.foldl walkStep q.steps.reverse).reverse := by
  obtain ⟨p, rfl, hjoin⟩ := exists_absolute_eq_clean ha h
  refine ⟨(p.join b).clean, hjoin b hb, fun home' current' => ?_, clean_join hb p⟩
  have habsolute : (p.clean.join b).isAbsolute = true := by
    rw [isAbsolute_join_relative hb, (normal_clean p).isAbsolute]
  rw [absolute_of_isAbsolute habsolute, clean_join_clean hb]

theorem absolute_join_above_home :
    let home : Path := ofText "h/i".toList
    let current : Path := ofText "/c".toList
    let a : Path := ofText "~/./a/".toList
    let b : Path := ofText "../..//../~".toList
    a.absolute (some home) (.ok current) = .ok (ofText "/c/h/i/a".toList) ∧
    (a.join b).absolute (some home) (.ok current) = .ok (ofText "/c/~".toList) ∧
    (join (ofText "/c/h/i/a".toList) b).absolute none (.error (.fault .missing)) =
      .ok (ofText "/c/~".toList) := by
  intro home current a b
  have ha : a.absolute (some home) (.ok current) = .ok (ofText "/c/h/i/a".toList) := by
    decide +kernel
  obtain ⟨r, hr, hjoin, hwalk⟩ :=
    absolute_join (some home) (.ok current) (a := a) (b := b) (by decide +kernel)
      (by decide +kernel) ha
  obtain rfl : r = ofText "/c/~".toList := by
    rw [hwalk]
    decide +kernel
  exact ⟨ha, hr, hjoin none _⟩

end Path

end StyleVars
