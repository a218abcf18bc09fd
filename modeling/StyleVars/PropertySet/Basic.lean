import StyleVars.Text.Order

namespace StyleVars

/-- Keeps the last of each row of equal neighbours. -/
def dropRepeats : List Text → List Text
  | a :: b :: rest => if a = b then dropRepeats (b :: rest) else a :: dropRepeats (b :: rest)
  | names => names

@[simp] theorem mem_dropRepeats {x : Text} {names : List Text} :
    x ∈ dropRepeats names ↔ x ∈ names := by
  fun_induction dropRepeats names with
  | case1 a rest ih => simp [ih]
  | case2 a b rest hab ih => simp [ih]
  | case3 names => rfl

theorem pairwise_dropRepeats {names : List Text}
    (h : names.Pairwise fun a b => b.precedes a = false) :
    (dropRepeats names).Pairwise fun a b => a.precedes b = true := by
  fun_induction dropRepeats names with
  | case1 a rest ih => exact ih h.of_cons
  | case2 a b rest hab ih =>
    refine List.pairwise_cons.2 ⟨fun x hx => ?_, ih h.of_cons⟩
    have hlt : a.precedes b = true :=
      Text.precedes_of_ne ((List.pairwise_cons.1 h).1 b (by simp)) hab
    rcases List.mem_cons.1 (mem_dropRepeats.1 hx) with rfl | hx
    · exact hlt
    · exact Text.precedes_of_precedes_of_not hlt ((List.pairwise_cons.1 h.of_cons).1 x hx)
  | case3 names hn =>
    match names, hn with
    | [], _ => exact .nil
    | [a], _ => exact List.pairwise_singleton _ _
    | a :: b :: rest, hn => exact absurd rfl (hn a b rest)

structure PropertySet where
  names : List Text
  ascending : names.Pairwise fun a b => a.precedes b = true := by decide
  deriving DecidableEq

namespace PropertySet

def empty : PropertySet := { names := [] }

def inOrder (a b : Text) : Bool := !b.precedes a

theorem inOrder_trans (a b c : Text) (hab : inOrder a b = true) (hbc : inOrder b c = true) :
    inOrder a c = true := by
  simp only [inOrder, Bool.not_eq_true'] at *
  cases h : c.precedes a with
  | false => rfl
  | true => exact absurd (Text.precedes_of_precedes_of_not h hab) (by simp [hbc])

theorem inOrder_total (a b : Text) : (inOrder a b || inOrder b a) = true := by
  cases h : b.precedes a with
  | false => simp [inOrder, h]
  | true => simp [inOrder, Text.not_precedes_of_precedes h]

def ofList (names : List Text) : PropertySet where
  names := dropRepeats (names.mergeSort inOrder)
  ascending := pairwise_dropRepeats <| by
    simpa [inOrder] using List.pairwise_mergeSort inOrder_trans inOrder_total names

def toList (s : PropertySet) : List Text := s.names

def size (s : PropertySet) : Nat := s.names.length

def isEmpty (s : PropertySet) : Bool := s.names.isEmpty

def search (x : Text) (names : List Text) : Bool :=
  match h : names.drop (names.length / 2) with
  | [] => false
  | middle :: above =>
    if x = middle then true
    else if x.precedes middle then search x (names.take (names.length / 2))
    else search x above
termination_by names.length
decreasing_by
  · have : (names.drop (names.length / 2)).length = above.length + 1 := by rw [h]; rfl
    simp only [List.length_drop, List.length_take] at *
    omega
  · have : (names.drop (names.length / 2)).length = above.length + 1 := by rw [h]; rfl
    simp only [List.length_drop] at *
    omega

def contains (s : PropertySet) (x : Text) : Bool := search x s.names

@[simp] theorem mem_toList_ofList {x : Text} {names : List Text} :
    x ∈ (ofList names).toList ↔ x ∈ names := by
  simp [ofList, toList, List.mem_mergeSort]

end PropertySet

end StyleVars
