import StyleVars.Document.Target
import StyleVars.Session.Basic
import StyleVars.Settings.Load
import StyleVars.Text.Blank

namespace StyleVars

inductive Question where
  | menu
  | searchTerm
  | folder
  deriving DecidableEq

inductive Reply where
  | chosen (index : Nat)
  | cancelled
  | typed (t : Text)
  deriving DecidableEq

inductive Action where
  | pick (property : Text)
  | filter
  | refresh
  | selectFolder
  | quit
  deriving DecidableEq

/-- What a line behind the properties does, counted from the last of them. -/
def Action.behind : Nat → Action
  | 0 => filter
  | 1 => refresh
  | 2 => selectFolder
  | _ => quit

def Event.notice? : Event → Option Notice
  | .shown notice => some notice
  | .folderAsked _ => none
  | .updated _ s =>
    some (.info s!"Found {s.properties.size} custom properties in {s.root.display}")

def Settings.session (settings : Settings) : Session :=
  (Session.subscribe { options := settings.scan }).session

structure Browser where
  session : Session
  search : Text := []
  question : Question
  notices : List Notice := []

namespace Browser

variable (env : Environment) (b : Browser)

def view : View := b.session.view b.search

def labels : List Text :=
  b.view.properties ++ ["Filter… (current: \"".toList ++ b.search ++ "\")".toList,
    "Refresh".toList, "Select folder…".toList, "Quit".toList]

def action (index : Nat) : Action :=
  let properties := b.view.properties
  if h : index < properties.length then .pick properties[index]
  else .behind (index - properties.length)

def tell (notices : List Notice) : Browser := { b with notices := b.notices ++ notices }

def showMenu : Browser := { b.tell [.info b.view.message] with question := .menu }

/-- Goes on with the session after an operation. Its result does not matter, because the session
tells of its failures itself. -/
def after {α : Type} (step : Session.Step α) : Browser :=
  { b.tell (step.events.filterMap Event.notice?) with session := step.session }

def refresh : Browser :=
  let warned := if b.session.root.isNone then b.tell [.warning "No folder selected yet"] else b
  (warned.after (b.session.refresh env)).showMenu

/-- The folder that an answer names. An answer without anything but blanks names none. -/
def pickedFolder? (answer : Text) : Option Path :=
  if answer.trim.isEmpty then none else some ((Path.ofText answer.trim).expandUser env.home)

def choose (picked : Except IoError (Option Path)) : Browser :=
  (b.after (b.session.choose env picked)).showMenu

inductive Progress where
  | asking (b : Browser)
  | ended (b : Browser) (picked : Option Text)

def act : Action → Progress
  | .pick property => .ended b (some property)
  | .filter => .asking { b with question := .searchTerm }
  | .refresh => .asking (b.refresh env)
  | .selectFolder => .asking { b with question := .folder }
  | .quit => .ended b none

/-- Goes on with a reply. A reply that does not fit the question changes nothing. -/
def answer : Reply → Progress
  | .chosen index => if b.question = .menu then b.act env (b.action index) else .asking b
  | .cancelled => if b.question = .menu then .ended b none else .asking b
  | .typed t =>
    match b.question with
    | .menu => .asking b
    | .searchTerm => .asking { b with search := t }.showMenu
    | .folder => .asking (b.choose env (.ok (pickedFolder? env t)))

def Progress.answer (p : Progress) (reply : Reply) : Progress :=
  match p with
  | asking b => b.answer env reply
  | ended b picked => ended b picked

/-- The loop of the program, on the replies that the user gives one after the other. -/
def run (replies : List Reply) : Progress :=
  replies.foldl (Progress.answer env) (.asking b)

def start (settings : Settings) (root : Option Path) : Browser :=
  let b : Browser := { session := settings.session, question := .folder }
  match root with
  | some path => (b.after (b.session.select env path)).showMenu
  | none => b

end Browser

end StyleVars
