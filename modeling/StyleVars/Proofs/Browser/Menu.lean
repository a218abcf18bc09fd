import StyleVars.Browser.Basic
import StyleVars.Proofs.PropertySet.Search
import StyleVars.Proofs.Session.Published

namespace StyleVars

namespace Browser

/-- How the menu words an action. -/
def label (b : Browser) : Action → Text
  | .pick property => property
  | .filter => "Filter… (current: \"".toList ++ b.search ++ "\")".toList
  | .refresh => "Refresh".toList
  | .selectFolder => "Select folder…".toList
  | .quit => "Quit".toList

/-- The properties on the screen can be picked, and all other actions are always there. -/
def Offers (b : Browser) (a : Action) : Prop :=
  ∀ property, a = .pick property → property ∈ b.view.properties

variable {env : Environment} {b : Browser} {a a' : Action}

theorem action_of_lt {i : Nat} (h : i < b.view.properties.length) :
    b.action i = .pick b.view.properties[i] :=
  dif_pos h

theorem action_add (b : Browser) (k : Nat) :
    b.action (b.view.properties.length + k) = .behind k := by
  have hnot : ¬ b.view.properties.length + k < b.view.properties.length := by omega
  rw [action]
  simp only [dif_neg hnot, Nat.add_sub_cancel_left]

theorem offers_action (b : Browser) (i : Nat) : b.Offers (b.action i) := by
  intro property h
  obtain hlt | hle := Nat.lt_or_ge i b.view.properties.length
  · rw [action_of_lt hlt] at h
    cases h
    exact List.getElem_mem hlt
  · obtain ⟨k, rfl⟩ := Nat.exists_eq_add_of_le hle
    rw [action_add] at h
    unfold Action.behind at h
    split at h <;> cases h

end Browser

end StyleVars
