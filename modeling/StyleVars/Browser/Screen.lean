import StyleVars.Browser.Basic
import StyleVars.Terminal.LineEditor
import StyleVars.Terminal.Menu

namespace StyleVars

open Terminal (Key Menu LineEditor Pressed)

inductive Widget where
  | menu (m : Menu)
  | editor (e : LineEditor)

namespace Widget

def ofBrowser (b : Browser) : Widget :=
  match b.question with
  | .menu => .menu { size := b.labels.length }
  | .searchTerm => .editor ⟨b.search⟩
  | .folder => .editor {}

def press (key : Key) : Widget → Pressed Widget Reply
  | menu m =>
    match m.press key with
    | .still m => .still (menu m)
    | .reply (some index) => .reply (.chosen index)
    | .reply none => .reply .cancelled
  | editor e =>
    match e.press key with
    | .still e => .still (editor e)
    | .reply t => .reply (.typed t)

end Widget

namespace Browser

/-- The replies that keys give while a widget is shown. A key that ends the widget brings up the one
for the next question, and what is typed after the end of the run gives no reply. -/
def repliesFrom (env : Environment) (b : Browser) (widget : Widget) : List Key → List Reply
  | [] => []
  | key :: rest =>
    match widget.press key with
    | .still widget => repliesFrom env b widget rest
    | .reply reply =>
      reply ::
        match b.answer env reply with
        | .asking b => repliesFrom env b (.ofBrowser b) rest
        | .ended _ _ => []

def replies (env : Environment) (b : Browser) (keys : List Key) : List Reply :=
  repliesFrom env b (.ofBrowser b) keys

end Browser

end StyleVars
