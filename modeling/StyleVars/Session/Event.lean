import StyleVars.Session.Snapshot

namespace StyleVars

inductive Notice where
  | info (message : String)
  | success (message : String)
  | warning (message : String)
  | error (message : String) (hint : Option String)
  deriving DecidableEq

inductive Event where
  | shown (notice : Notice)
  | folderAsked (title : String)
  | updated (listener : Nat) (snapshot : Snapshot)
  deriving DecidableEq

/-- The user interface that a session reports to. A headless one shows nothing and never picks a
folder. -/
inductive Interface where
  | visible
  | headless
  deriving DecidableEq

def Interface.report : Interface → Notice → List Event
  | visible, notice => [.shown notice]
  | headless, _ => []

def Interface.askFolder : Interface → String → List Event
  | visible, title => [.folderAsked title]
  | headless, _ => []

end StyleVars
