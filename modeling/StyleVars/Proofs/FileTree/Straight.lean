import StyleVars.Proofs.FileTree.Leads
import StyleVars.Proofs.Path.Normal

namespace StyleVars.FileTree

variable {tree : FileTree} {followLast : Bool} {l l' : Location} {name : Name} {n : Nat}
  {steps rest : List Bytes}

/-- A folder with folders only above it. -/
def Stands (tree : FileTree) (l : Location) : Prop :=
  ∀ above, above <+: l → tree.node? above = some .folder

theorem stands_nil (tree : FileTree) : tree.Stands [] := by
  intro above h
  rw [List.prefix_nil.1 h]
  rfl

theorem Stands.dropLast (h : tree.Stands l) : tree.Stands l.dropLast :=
  fun above habove => h above (habove.trans (List.dropLast_prefix l))

theorem Stands.concat (h : tree.Stands l) (hname : tree.node? (l ++ [name]) = some .folder) :
    tree.Stands (l ++ [name]) := by
  intro above habove
  obtain rfl | habove := List.prefix_concat_iff.1 habove
  · exact hname
  · exact h above habove

/-- Up to the last `..` among the steps, all names are names of folders. -/
inductive Straight (tree : FileTree) : Location → List Bytes → Prop where
  | down {l : Location} {steps : List Bytes} (h : Path.dotDot ∉ steps) : Straight tree l steps
  | dot {l : Location} {rest : List Bytes} (hrest : Straight tree l rest) :
      Straight tree l (Path.dot :: rest)
  | dotDot {l : Location} {rest : List Bytes} (hrest : Straight tree l.dropLast rest) :
      Straight tree l (Path.dotDot :: rest)
  | folder {l : Location} {name : Name} {rest : List Bytes}
      (hname : tree.node? (l ++ [name]) = some .folder)
      (hrest : Straight tree (l ++ [name]) rest) : Straight tree l (name.bytes :: rest)

theorem walkLinks_stands (h : tree.Stands (l ++ l')) :
    walkLinks tree followLast n l (l'.map Name.bytes ++ rest) =
      walkLinks tree followLast n (l ++ l') rest := by
  induction l' generalizing l with
  | nil => simp
  | cons name l' ih =>
    rw [List.append_cons] at h ⊢
    rw [List.map_cons, List.cons_append, walkLinks_folder (h _ (List.prefix_append _ _)), ih h]

def withoutDots (steps : List Bytes) : List Bytes := steps.filter (· != Path.dot)

theorem withoutDots_cons (step : Bytes) (rest : List Bytes) :
    withoutDots (step :: rest) =
      if step = Path.dot then withoutDots rest else step :: withoutDots rest := by
  by_cases h : step = Path.dot <;> simp [withoutDots, h]

theorem withoutDots_append (steps rest : List Bytes) :
    withoutDots (steps ++ rest) = withoutDots steps ++ withoutDots rest := List.filter_append ..

theorem withoutDots_withoutDots (steps : List Bytes) :
    withoutDots (withoutDots steps) = withoutDots steps := by
  simp [withoutDots]

theorem dot_notMem_withoutDots (steps : List Bytes) : Path.dot ∉ withoutDots steps := by
  simp [withoutDots]

def EndsByName (steps : List Bytes) : Prop := steps.getLast? ≠ some Path.dot

theorem EndsByName.tail {step : Bytes} (h : EndsByName (step :: rest)) : EndsByName rest := by
  intro hlast
  exact h (by rw [List.getLast?_cons, hlast]; rfl)

theorem EndsByName.append (h : EndsByName rest) (hrest : rest ≠ []) (steps : List Bytes) :
    EndsByName (steps ++ rest) := by
  unfold EndsByName
  rwa [List.getLast?_append_of_ne_nil _ hrest]

theorem endsByName_withoutDots (steps : List Bytes) : EndsByName (withoutDots steps) :=
  fun h => dot_notMem_withoutDots steps (List.mem_of_getLast? h)

theorem EndsByName.withoutDots_eq_nil (h : EndsByName steps) :
    withoutDots steps = [] ↔ steps = [] := by
  constructor
  · intro hnil
    by_contra hne
    obtain ⟨step, hlast⟩ := Option.ne_none_iff_exists'.1 (mt List.getLast?_eq_none_iff.1 hne)
    have hdot : step ≠ Path.dot := fun heq => h (heq ▸ hlast)
    have hmem : step ∈ withoutDots steps :=
      List.mem_filter.2 ⟨List.mem_of_getLast? hlast, by simpa using hdot⟩
    rw [hnil] at hmem
    cases hmem
  · rintro rfl
    rfl

theorem walkSteps_withoutDots
    {through : Location → List Bytes → Except Fault (Location × Node)}
    (hthrough : ∀ l steps, EndsByName steps → through l (withoutDots steps) = through l steps)
    (h : EndsByName steps) :
    walkSteps tree followLast through l (withoutDots steps) =
      walkSteps tree followLast through l steps := by
  induction steps generalizing l with
  | nil => rfl
  | cons step rest ih =>
    have ih {l : Location} := ih (l := l) h.tail
    obtain rfl | rfl | ⟨name, rfl⟩ | ⟨fault, hfault⟩ := step_cases step
    · rw [withoutDots_cons, if_pos rfl, walkSteps_dot, ih]
    · rw [withoutDots_cons, if_neg (by decide), walkSteps_dotDot, walkSteps_dotDot, ih]
    · have hempty : (withoutDots rest).isEmpty = rest.isEmpty := by
        rw [Bool.eq_iff_iff, List.isEmpty_iff, List.isEmpty_iff, h.tail.withoutDots_eq_nil]
      rw [withoutDots_cons, if_neg name.ne_dot, walkSteps_name, walkSteps_name, hempty]
      cases tree.node? (l ++ [name]) with
      | none => rfl
      | some node =>
        cases node with
        | folder => exact ih
        | file content => rfl
        | link target =>
          have hlater (l : Location) : through l (lookupSteps target ++ withoutDots rest) =
              through l (lookupSteps target ++ rest) := by
            by_cases hrest : rest = []
            · rw [hrest]
              rfl
            · have hne := mt h.tail.withoutDots_eq_nil.1 hrest
              rw [← hthrough l _ (h.tail.append hrest _),
                ← hthrough l _ ((endsByName_withoutDots rest).append hne _), withoutDots_append,
                withoutDots_append, withoutDots_withoutDots]
          simp only [hlater]
    · have hne : step ≠ Path.dot := by
        rintro rfl
        cases hfault tree followLast through [] []
      rw [withoutDots_cons, if_neg hne, hfault, hfault]

theorem walkLinks_withoutDots (n : Nat) (h : EndsByName steps) :
    walkLinks tree followLast n l (withoutDots steps) = walkLinks tree followLast n l steps := by
  induction n generalizing l steps with
  | zero =>
    rw [walkLinks]
    exact walkSteps_withoutDots (fun _ _ _ => rfl) h
  | succ n ih =>
    rw [walkLinks]
    exact walkSteps_withoutDots (fun _ _ => ih) h

/-- The names to which the steps lead from a folder, by their spelling alone. -/
def spelled (l : Location) (steps : List Bytes) : List Bytes :=
  (steps.foldl Path.walkStep (l.map Name.bytes).reverse).reverse

theorem spelled_of_down (h : Path.dotDot ∉ steps) (l : Location) :
    spelled l steps = l.map Name.bytes ++ steps := by
  rw [spelled, Path.foldl_walkStep_of_down h, List.reverse_append, List.reverse_reverse,
    List.reverse_reverse]

theorem spelled_dotDot (l : Location) (rest : List Bytes) :
    spelled l (Path.dotDot :: rest) = spelled l.dropLast rest := by
  have hup : Path.walkStep (l.map Name.bytes).reverse Path.dotDot =
      (l.dropLast.map Name.bytes).reverse := by
    rw [Path.walkStep, if_pos rfl, List.drop_one, List.tail_reverse, List.map_dropLast]
  rw [spelled, List.foldl_cons, hup]
  rfl

theorem spelled_name (l : Location) (name : Name) (rest : List Bytes) :
    spelled l (name.bytes :: rest) = spelled (l ++ [name]) rest := by
  have hdown : Path.walkStep (l.map Name.bytes).reverse name.bytes =
      ((l ++ [name]).map Name.bytes).reverse := by
    rw [Path.walkStep, if_neg name.ne_dotDot]
    simp
  rw [spelled, List.foldl_cons, hdown]
  rfl

theorem Straight.walkLinks_spelled (h : Straight tree l steps) (hl : tree.Stands l)
    (hend : EndsByName steps) (n : Nat) :
    walkLinks tree followLast n [] (spelled l (withoutDots steps)) =
      walkLinks tree followLast n l steps := by
  induction h with
  | @down l steps hdown =>
    have hdown : Path.dotDot ∉ withoutDots steps := mt List.mem_of_mem_filter hdown
    rw [spelled_of_down hdown, walkLinks_stands (l := []) hl, List.nil_append,
      walkLinks_withoutDots n hend]
  | dot hrest ih => rw [withoutDots_cons, if_pos rfl, walkLinks_dot, ih hl hend.tail]
  | dotDot hrest ih =>
    rw [withoutDots_cons, if_neg (by decide), spelled_dotDot, walkLinks_dotDot,
      ih hl.dropLast hend.tail]
  | @folder l name rest hname hrest ih =>
    rw [withoutDots_cons, if_neg name.ne_dot, spelled_name, walkLinks_folder hname,
      ih (hl.concat hname) hend.tail]

end StyleVars.FileTree
