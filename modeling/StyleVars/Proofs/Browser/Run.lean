import StyleVars.Proofs.Browser.Menu

namespace StyleVars

open Session (Operation)

namespace Browser

variable {env : Environment} {b b' : Browser} {reply : Reply}

inductive Move (env : Environment) (b : Browser) : Reply → Progress → Prop where
  | chosen {i : Nat} {a : Action} (hmenu : b.question = .menu) (ha : b.action i = a) :
      Move env b (.chosen i) (b.act env a)
  | left (hmenu : b.question = .menu) : Move env b .cancelled (.ended b none)
  | searched (t : Text) (hsearch : b.question = .searchTerm) :
      Move env b (.typed t) (.asking { b with search := t }.showMenu)
  | folderNamed (t : Text) (hfolder : b.question = .folder) :
      Move env b (.typed t) (.asking (b.choose env (.ok (pickedFolder? env t))))
  | ignored (reply : Reply) : Move env b reply (.asking b)

theorem answer_move (env : Environment) (b : Browser) (reply : Reply) :
    Move env b reply (b.answer env reply) := by
  cases reply with
  | chosen index =>
    simp only [answer]
    split
    case isTrue hmenu => exact .chosen hmenu rfl
    case isFalse => exact .ignored _
  | cancelled =>
    simp only [answer]
    split
    case isTrue hmenu => exact .left hmenu
    case isFalse => exact .ignored _
  | typed t =>
    simp only [answer]
    split
    case h_1 => exact .ignored _
    case h_2 hsearch => exact .searched t hsearch
    case h_3 hfolder => exact .folderNamed t hfolder

/-- Whether a browser comes from another one by an operation on the session, after which the menu is
shown. -/
structure Operated (env : Environment) (b : Browser) (op : Operation) (b' : Browser) : Prop where
  session_eq : b'.session = (b.session.perform env op).session
  search_eq : b'.search = b.search
  question_eq : b'.question = .menu

theorem operated_choose (env : Environment) (b : Browser) (picked : Except IoError (Option Path)) :
    Operated env b (.choose picked) (b.choose env picked) :=
  ⟨rfl, rfl, rfl⟩

theorem operated_refresh (env : Environment) (b : Browser) :
    Operated env b .refresh (b.refresh env) := by
  unfold refresh
  cases b.session.root <;> exact ⟨rfl, rfl, rfl⟩

variable {op : Operation}

theorem Operated.wellFormed (h : Operated env b op b') (hs : b.session.WellFormed) :
    b'.session.WellFormed := by
  rw [h.session_eq]
  exact (Session.perform_effect env b.session op).wellFormed hs

theorem Operated.published_eq (h : Operated env b op b') :
    b'.session.published =
      (b.session.perform env op).result.snapshot?.or b.session.published := by
  rw [h.session_eq]
  exact (Session.perform_effect env b.session op).published_eq

theorem snapshot?_scanned {result : Except Error (Option Snapshot)} {snapshot : Snapshot} :
    (Session.Answer.scanned result).snapshot? = some snapshot ↔ result = .ok (some snapshot) := by
  cases result with
  | error e => exact iff_of_false nofun nofun
  | ok found => exact ⟨congrArg Except.ok, Except.ok.inj⟩

variable {result : Except Error (Option Snapshot)}

theorem Operated.published_cases (h : Operated env b op b')
    (hresult : (b.session.perform env op).result = .scanned result) :
    b'.session.published = b.session.published ∨
      ∃ snapshot, b'.session.published = some snapshot ∧ result = .ok (some snapshot) := by
  have hpublished := h.published_eq
  rw [hresult] at hpublished
  cases hsnapshot : (Session.Answer.scanned result).snapshot? with
  | none =>
    rw [hsnapshot] at hpublished
    exact Or.inl hpublished
  | some snapshot =>
    rw [hsnapshot] at hpublished
    exact Or.inr ⟨snapshot, hpublished, snapshot?_scanned.1 hsnapshot⟩

theorem Operated.kept (h : Operated env b op b')
    (hresult : (b.session.perform env op).result = .scanned result)
    (hnone : ∀ snapshot, result ≠ .ok (some snapshot)) :
    b'.search = b.search ∧ b'.view = b.view := by
  obtain hpublished | ⟨snapshot, -, hsome⟩ := h.published_cases hresult
  · exact ⟨h.search_eq, by rw [view, view, Session.view, Session.view, hpublished, h.search_eq]⟩
  · exact absurd hsome (hnone snapshot)

/-- What a reply keeps of a browser that goes on. The search term changes only in the search box,
which only its own line of the menu opens, and the list changes only by a scan that the user has
asked for and that has succeeded. -/
structure Keeps (env : Environment) (b : Browser) (reply : Reply) (b' : Browser) : Prop where
  search : b'.search ≠ b.search → b.question = .searchTerm ∧ reply = .typed b'.search
  searchBox : b'.question = .searchTerm → b' = b ∨
    b.question = .menu ∧ ∃ i, reply = .chosen i ∧ b.labels[i]? = some (b.label .filter)
  list : b'.session.published = b.session.published ∨
    ∃ snapshot, b'.session.published = some snapshot ∧
      (b.question = .folder ∧ (∃ t, reply = .typed t ∧
        (b.session.choose env (.ok (pickedFolder? env t))).result = .ok (some snapshot)) ∨
      b.question = .menu ∧ (∃ i, reply = .chosen i ∧ b.labels[i]? = some (b.label .refresh)) ∧
        (b.session.refresh env).result = .ok (some snapshot))

def Progress.Sound : Progress → Prop
  | .asking b | .ended b none => b.session.WellFormed
  | .ended b (some property) => b.session.WellFormed ∧ property ∈ b.view.properties

theorem sound_answer (hs : b.session.WellFormed) (env : Environment) (reply : Reply) :
    (b.answer env reply).Sound := by
  have hmove := answer_move env b reply
  generalize b.answer env reply = p at hmove
  cases hmove with
  | @chosen i a hmenu ha =>
    cases a with
    | pick property => exact ⟨hs, offers_action b i property ha⟩
    | filter | selectFolder | quit => exact hs
    | refresh => exact (operated_refresh env b).wellFormed hs
  | left hmenu => exact hs
  | searched t hsearch => exact hs
  | folderNamed t hfolder => exact (operated_choose env b _).wellFormed hs
  | ignored reply => exact hs

theorem Progress.Sound.answer {p : Progress} (hp : p.Sound) (env : Environment) (reply : Reply) :
    (p.answer env reply).Sound := by
  cases p with
  | asking b => exact sound_answer hp env reply
  | ended b picked => exact hp

end Browser

end StyleVars
