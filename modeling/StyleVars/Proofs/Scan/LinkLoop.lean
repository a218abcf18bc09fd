import Mathlib.Data.Finset.Lattice.Fold
import Mathlib.Data.Set.Finite.Lattice
import Mathlib.Order.Lattice.Nat
import StyleVars.Proofs.Scan.Discovered

namespace StyleVars

/-- The places where a folder that a path leads to can lie. -/
def Environment.places (env : Environment) : Finset Location :=
  (([] :: env.current.toList ++ env.tree.nodes.map Prod.fst).flatMap List.inits).toFinset

def Environment.depth (env : Environment) : Nat := env.places.sup List.length

section Places

variable {env : Environment} {l : Location}

theorem Environment.mem_places :
    l ∈ env.places ↔ ∃ m, l <+: m ∧ (m = [] ∨ env.current = some m ∨
      ∃ node, (m, node) ∈ env.tree.nodes) := by
  simp only [places, List.mem_toFinset, List.mem_flatMap, List.mem_inits, List.mem_cons,
    List.mem_append, Option.mem_toList, List.mem_map, Prod.exists, exists_and_right,
    exists_eq_right, List.cons_append]
  refine exists_congr fun m => ?_
  rw [and_comm]

theorem Environment.length_le_depth (h : l ∈ env.places) : l.length ≤ env.depth :=
  Finset.le_sup (f := List.length) h

theorem Environment.mem_places_of_prefix {m : Location} (h : m ∈ env.places) (hl : l <+: m) :
    l ∈ env.places := by
  rw [mem_places] at h ⊢
  obtain ⟨k, hk, h⟩ := h
  exact ⟨k, hl.trans hk, h⟩

theorem Environment.nil_mem_places : [] ∈ env.places :=
  mem_places.2 ⟨[], List.prefix_rfl, Or.inl rfl⟩

theorem Environment.mem_places_of_node? {name : Name} {node : Node}
    (h : env.tree.node? (l ++ [name]) = some node) : l ++ [name] ∈ env.places := by
  rw [FileTree.node?_concat, FileTree.lookup_eq_some] at h
  exact mem_places.2 ⟨_, List.prefix_rfl, Or.inr (Or.inr ⟨node, h⟩)⟩

theorem FileTree.Leads.mem_places {steps : List Bytes} {l' : Location} {node : Node}
    (h : env.tree.Leads true l steps l' node) (hl : l ∈ env.places) : l' ∈ env.places := by
  induction h with
  | here => exact hl
  | dot hrest ih => exact ih hl
  | dotDot hrest ih => exact ih (Environment.mem_places_of_prefix hl (List.dropLast_prefix _))
  | folder hname hrest ih => exact ih (Environment.mem_places_of_node? hname)
  | file hname => exact Environment.mem_places_of_node? hname
  | lastLink hlast hname => exact Environment.mem_places_of_node? hname
  | link hfollow hname hrest ih =>
    refine ih ?_
    split
    · exact Environment.nil_mem_places
    · exact hl

theorem Environment.mem_places_of_find {p : Path} {node : Node} (h : env.find p = .ok (l, node)) :
    l ∈ env.places := by
  obtain ⟨-, start, hstart, h⟩ := leads_of_find h
  refine h.mem_places ?_
  unfold start? at hstart
  split at hstart
  · cases hstart
    exact nil_mem_places
  · exact mem_places.2 ⟨start, List.prefix_rfl, Or.inr (Or.inl hstart)⟩

end Places

namespace Scan

/-- The places of the folders that a search is in, innermost first. Each is an entry of the one
before it, or a link has led to a place that is new. -/
inductive Descent (env : Environment) : List Location → Prop where
  | root {l : Location} (hl : l ∈ env.places) : Descent env [l]
  | entry {l : Location} {ls : List Location} {name : Name} (hls : Descent env (l :: ls))
      (hl : l ++ [name] ∈ env.places) : Descent env ((l ++ [name]) :: l :: ls)
  | link {l l' : Location} {ls : List Location} (hls : Descent env (l :: ls))
      (hl : l' ∈ env.places) (hnew : l' ∉ l :: ls) : Descent env (l' :: l :: ls)

namespace Descent

variable {env : Environment} {ls : List Location}

theorem subset (h : Descent env ls) : ls.toFinset ⊆ env.places := by
  induction h with
  | root hl => simpa using hl
  | entry hls hl ih => simpa [Finset.insert_subset_iff, hl] using ih
  | link hls hl hnew ih => simpa [Finset.insert_subset_iff, hl] using ih

/-- A new place pays for as many entries below it as a place can be deep. -/
theorem length_add_depth_le {l : Location} (h : Descent env (l :: ls)) :
    (l :: ls).length + env.depth ≤ (l :: ls).toFinset.card * (env.depth + 1) + l.length := by
  generalize hall : l :: ls = all at h
  induction h generalizing l ls with
  | root hl =>
    cases hall
    simp
    omega
  | @entry l' ls' name hls hl ih =>
    cases hall
    have h := ih rfl
    have hcard := Finset.card_le_card (Finset.subset_insert (l' ++ [name]) (l' :: ls').toFinset)
    rw [← List.toFinset_cons] at hcard
    have hmul := Nat.mul_le_mul_right (env.depth + 1) hcard
    simp only [List.length_cons, List.length_append, List.length_nil] at h ⊢
    omega
  | @link l' l ls' hls hl hnew ih =>
    -- The link may lead up as far as it likes, since its place has not been counted yet.
    cases hall
    have h := ih rfl
    have hdepth : l'.length ≤ env.depth := Environment.length_le_depth (hls.subset (by simp))
    have hcard : (l :: l' :: ls').toFinset.card = (l' :: ls').toFinset.card + 1 := by
      rw [List.toFinset_cons, Finset.card_insert_of_notMem (by simpa using hnew)]
    rw [hcard, Nat.add_mul]
    simp only [List.length_cons] at h ⊢
    omega

theorem length_le (h : Descent env ls) : ls.length ≤ env.places.card * (env.depth + 1) := by
  cases ls with
  | nil => exact Nat.zero_le _
  | cons l ls =>
    have hlen := h.length_add_depth_le
    have hdepth := Environment.length_le_depth (h.subset (List.mem_toFinset.2 List.mem_cons_self))
    have hmul := Nat.mul_le_mul_right (env.depth + 1) (Finset.card_le_card h.subset)
    omega

end Descent

variable {env : Environment} {options : ScanOptions} {root : Path}

namespace Visit

variable {v w : Visit} {l : Location}

theorem Reaches.descent (h : Visit.Reaches env options ⟨[], root⟩ v)
    (hfind : env.find v.folder = .ok (l, .folder)) :
    Descent env (l :: v.above.map Ancestor.location) := by
  induction h generalizing l with
  | refl => exact .root (Environment.mem_places_of_find hfind)
  | @tail w v hw henters ih =>
    cases henters with
    | @entry m name hmeets =>
      obtain ⟨entries, stands, hread, hmem, hnode, -⟩ := hmeets
      obtain ⟨hfolder, rfl⟩ := Environment.readFolder_eq_ok.1 hread
      have hstands := FileTree.mem_entries.1 hmem
      obtain ⟨rfl, -⟩ | ⟨-, -, l', hfind', hnew⟩ := followEntry_eq_ok hnode
      · have hentry := (Environment.Leads.join_iff_of_folder (Environment.leads_of_find hfolder)).1
          (Environment.leads_of_find hfind)
        have hreal := (FileTree.Leads.entry_iff.2 ⟨rfl, hstands⟩).follow (by simp)
        obtain ⟨rfl, -⟩ := hentry.unique hreal
        exact .entry (ih hfolder) (Environment.mem_places_of_node? hstands)
      · cases hfind.symm.trans hfind'
        refine .link (ih hfolder) (Environment.mem_places_of_find hfind) fun hl => ?_
        have hl : l ∈ (w.within m).map Ancestor.location := hl
        obtain ⟨a, ha, hal⟩ := List.mem_map.1 hl
        exact hnew rfl a ha hal

theorem Reaches.length_above_le (h : Visit.Reaches env options ⟨[], root⟩ v) :
    v.above.length ≤ env.places.card * (env.depth + 1) := by
  obtain h | ⟨w, hw, henters⟩ := h.cases_tail
  · rw [h]
    exact Nat.zero_le _
  · cases henters with
    | @entry m name hmeets =>
      obtain ⟨entries, stands, hread, -⟩ := hmeets
      have h := (Reaches.descent hw (Environment.readFolder_eq_ok.1 hread).1).length_le
      simpa [within] using h

theorem finite_enters (env : Environment) (options : ScanOptions) (v : Visit) :
    {w | v.Enters env options w}.Finite := by
  cases hread : env.readFolder v.folder with
  | error cause =>
    refine Set.finite_empty.subset ?_
    rintro w ⟨entries, stands, hread', -⟩
    cases hread.symm.trans hread'
  | ok r =>
    obtain ⟨l, entries⟩ := r
    refine (entries.map fun e => ⟨v.within l, v.folder.join e.1.bytes⟩).finite_toSet.subset ?_
    rintro w ⟨entries', stands, hread', hmem, -⟩
    cases hread.symm.trans hread'
    exact List.mem_map.2 ⟨_, hmem, rfl⟩

theorem finite_reaches (env : Environment) (options : ScanOptions) (root : Path) :
    {v | Visit.Reaches env options ⟨[], root⟩ v}.Finite := by
  have hlevel (n : Nat) :
      {v : Visit | v.above.length = n ∧ Visit.Reaches env options ⟨[], root⟩ v}.Finite := by
    induction n with
    | zero =>
      refine (Set.finite_singleton (⟨[], root⟩ : Visit)).subset ?_
      rintro v ⟨hlen, hv⟩
      obtain h | ⟨w, hw, henters⟩ := hv.cases_tail
      · exact h
      · cases henters with
        | entry hmeets => simp [within] at hlen
    | succ n ih =>
      refine (ih.biUnion fun w _ => finite_enters env options w).subset ?_
      rintro v ⟨hlen, hv⟩
      obtain h | ⟨w, hw, henters⟩ := hv.cases_tail
      · simp [h] at hlen
      · have hlen' : w.above.length = n := by
          cases henters with
          | entry hmeets => simpa [within] using hlen
        exact Set.mem_biUnion (x := w) ⟨hlen', hw⟩ henters
  have hbound := Set.finite_le_nat (env.places.card * (env.depth + 1))
  refine (hbound.biUnion fun n _ => hlevel n).subset fun v hv => ?_
  exact Set.mem_biUnion (x := v.above.length) (Reaches.length_above_le hv) ⟨rfl, hv⟩

theorem Reaches.above (h : Visit.Reaches env options ⟨[], root⟩ v) :
    ∃ names, v.folder = root.below names ∧ ∀ a ∈ v.above,
      env.find a.path = .ok (a.location, .folder) ∧
        ∃ before, before <+: names ∧ a.path = root.below before := by
  induction h with
  | refl => exact ⟨[], rfl, by simp⟩
  | @tail w v hw henters ih =>
    obtain ⟨names, hnames, habove⟩ := ih
    cases henters with
    | @entry m name hmeets =>
      obtain ⟨entries, stands, hread, -⟩ := hmeets
      refine ⟨names ++ [name], by rw [Path.below_concat, hnames], fun a ha => ?_⟩
      obtain rfl | ha := List.mem_cons.1 ha
      · exact ⟨(Environment.readFolder_eq_ok.1 hread).1, names, List.prefix_append _ _, hnames⟩
      · obtain ⟨hfind, before, hbefore, hpath⟩ := habove a ha
        exact ⟨hfind, before, hbefore.trans (List.prefix_append _ _), hpath⟩

theorem Fails.linkLoop {path ancestor : Path} (hv : Visit.Reaches env options ⟨[], root⟩ v)
    (h : v.Fails env options (.linkLoop path ancestor)) :
    ∃ names more, more ≠ [] ∧ ancestor = root.below names ∧ path = root.below (names ++ more) ∧
      (∃ l target, env.Leads false path l (.link target)) ∧
      ∃ l, env.find ancestor = .ok (l, .folder) ∧ env.find path = .ok (l, .folder) := by
  obtain ⟨names, hnames, habove⟩ := hv.above
  obtain ⟨cause, -, he⟩ | ⟨l, entries, name, stands, hread, hmem, he⟩ := h
  · cases he
  obtain ⟨hfind, rfl⟩ := Environment.readFolder_eq_ok.1 hread
  obtain ⟨-, ⟨target, rfl⟩, ⟨cause, -, he⟩ | ⟨l', a, hchild, ha, rfl, he⟩⟩ :=
    followEntry_eq_error he
  · cases he
  obtain ⟨rfl, rfl⟩ := Error.linkLoop.inj he
  have hlink : env.Leads false (v.folder.join name.bytes) (l ++ [name]) (.link target) :=
    (Environment.Leads.stands_iff_of_folder (Environment.leads_of_find hfind)).2
      ⟨rfl, FileTree.mem_entries.1 hmem⟩
  obtain ⟨haFind, before, ⟨more, rfl⟩, haPath⟩ : env.find a.path = .ok (a.location, .folder) ∧
      ∃ before, before <+: names ∧ a.path = root.below before := by
    obtain rfl | ha := List.mem_cons.1 ha
    · exact ⟨hfind, names, List.prefix_rfl, hnames⟩
    · exact habove a ha
  refine ⟨before, more ++ [name], by simp, haPath, ?_, ⟨_, target, hlink⟩, a.location, haFind,
    hchild⟩
  rw [← List.append_assoc, Path.below_concat, hnames]

end Visit

theorem exists_error_of_infinite
    (h : {p | ∃ names, p = root.below names ∧ OpenFolder env options root names}.Infinite) :
    ∃ e, discover env options root = .error e := by
  cases hdiscover : discover env options root with
  | error e => exact ⟨e, rfl⟩
  | ok found =>
    -- A search that succeeds would have been in all of these folders.
    obtain ⟨-, hok⟩ := discover_isOk_iff.1 ⟨found, hdiscover⟩
    have hfinite := (Visit.finite_reaches env options root).image Visit.folder
    refine absurd (hfinite.subset ?_) h
    rintro p ⟨names, rfl, hopen⟩
    obtain ⟨above, hv⟩ := Visit.exists_reaches hok hopen
    exact ⟨_, hv, rfl⟩

/-- A search comes to an end, on any tree and with any links in it. It comes to finitely many
folders and is in boundedly many at a time, it fails just when one of them or the root does, and so
it fails when links make infinitely many folders. A loop that is reported is one. -/
theorem search_ends (env : Environment) (options : ScanOptions) (root : Path) :
    {v | Visit.Reaches env options ⟨[], root⟩ v}.Finite ∧
    (∀ v, Visit.Reaches env options ⟨[], root⟩ v →
      v.above.length ≤ env.places.card * (env.depth + 1)) ∧
    ((∃ found, discover env options root = .ok found) ↔ (∃ l, env.find root = .ok (l, .folder)) ∧
      ∀ v, Visit.Reaches env options ⟨[], root⟩ v → ∀ e, ¬ v.Fails env options e) ∧
    ({p | ∃ names, p = root.below names ∧ OpenFolder env options root names}.Infinite →
      ∃ e, discover env options root = .error e) ∧
    ∀ path ancestor, discover env options root = .error (.linkLoop path ancestor) →
      ∃ names more, more ≠ [] ∧ ancestor = root.below names ∧ path = root.below (names ++ more) ∧
        (∃ l target, env.Leads false path l (.link target)) ∧
        ∃ l, env.find ancestor = .ok (l, .folder) ∧ env.find path = .ok (l, .folder) := by
  refine ⟨Visit.finite_reaches env options root, fun v hv => Visit.Reaches.length_above_le hv,
    discover_isOk_iff, exists_error_of_infinite, fun path ancestor h => ?_⟩
  obtain ⟨cause, -, he⟩ | ⟨l, node, -, -, he⟩ | ⟨-, v, hv, he⟩ := discover_eq_error h
  · cases he
  · cases he
  · exact Visit.Fails.linkLoop hv he

theorem search_ends_link_above_root :
    let a : Name := (Name.ofBytes? [0x61]).get rfl
    let b : Name := (Name.ofBytes? [0x62]).get rfl
    let up : Name := (Name.ofBytes? [0x75, 0x70]).get rfl
    let env : Environment :=
      { tree := { nodes := [([a], .folder), ([a, b], .folder), ([a, b, up], .link [0x2f, 0x61])] },
        current := some [], home := none, configHome := none }
    let options : ScanOptions := { followLinks := true }
    let root : Path := [0x2f, 0x61, 0x2f, 0x62]
    {p | ∃ names, p = root.below names ∧ OpenFolder env options root names}.Infinite ∧
    (∃ e, discover env options root = .error e) ∧
    discover env options root = .error (.linkLoop (root.below [up, b, up]) (root.below [up])) ∧
    ∃ names more, more ≠ [] ∧ root.below [up] = root.below names ∧
      root.below [up, b, up] = root.below (names ++ more) := by
  intro a b up env options root
  obtain ⟨-, -, -, hinfinite, hloop⟩ := search_ends env options root
  let round (n : Nat) : List Name := (List.replicate n [up, b]).flatten
  have hround (n : Nat) : round (n + 1) = round n ++ [up] ++ [b] := by
    simp [round, List.replicate_succ']
  have hkeeps (n : Name) : options.Keeps n := ⟨by simp [options], by simp [options]⟩
  have hup : env.tree.Leads true [a, b] [up.bytes] [a] .folder :=
    FileTree.leads_of_walkLinks (n := 1) (by decide +kernel)
  have hb : env.tree.Leads true [a] [b.bytes] [a, b] .folder :=
    FileTree.leads_of_walkLinks (n := 0) (by decide +kernel)
  have hopen (n : Nat) : OpenFolder env options root (round n) ∧
      env.Leads true (root.below (round n)) [a, b] .folder := by
    induction n with
    | zero => exact ⟨openFolder_nil, Environment.leads_of_find (by decide +kernel)⟩
    | succ n ih =>
      have hfolder : env.Leads true (root.below (round n ++ [up])) [a] .folder := by
        rw [Path.below_concat]
        exact (Environment.Leads.join_iff_of_folder ih.2).2 hup
      have hfolder' : env.Leads true (root.below (round n ++ [up] ++ [b])) [a, b] .folder := by
        rw [Path.below_concat]
        exact (Environment.Leads.join_iff_of_folder hfolder).2 hb
      rw [hround, openFolder_concat, openFolder_concat]
      exact ⟨⟨⟨ih.1, hkeeps up, _, hfolder⟩, hkeeps b, _, hfolder'⟩, hfolder'⟩
  have hinjective : Function.Injective fun n => root.below (round n) := by
    intro m n h
    have hlen := congrArg List.length (Path.below_injective (by simp [root]) h)
    simp only [round, List.length_flatten, List.map_replicate, List.sum_replicate] at hlen
    exact Nat.eq_of_mul_eq_mul_right Nat.two_pos hlen
  have hall : {p | ∃ names, p = root.below names ∧ OpenFolder env options root names}.Infinite :=
    Set.infinite_of_injective_forall_mem hinjective fun n => ⟨round n, rfl, (hopen n).1⟩
  have hdiscover : discover env options root =
    .error (.linkLoop (root.below [up, b, up]) (root.below [up])) := by decide +kernel
  obtain ⟨names, more, hmore, hancestor, hpath, -⟩ := hloop _ _ hdiscover
  exact ⟨hall, hinfinite hall, hdiscover, names, more, hmore, hancestor, hpath⟩

end Scan

end StyleVars
