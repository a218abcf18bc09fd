import StyleVars.Browser.Screen
import StyleVars.Proofs.Browser.Run

namespace StyleVars

open Terminal (Key LineEditor Menu Pressed)

namespace Terminal

/-- A line editor takes every character of the text. -/
def LineEditor.Typable (t : Text) : Prop := ∀ c ∈ t, LineEditor.isControl c = false

namespace Menu

variable {m m' : Menu} {key : Key}

end Menu

namespace LineEditor

variable {e e' : LineEditor} {key : Key} {t : Text}

end LineEditor

end Terminal

open Terminal.LineEditor (Typable)

variable {env : Environment} {b b' : Browser} {reply : Reply} {key : Key} {rest : List Key}

namespace Widget

end Widget

namespace Browser

/-- The menu is answered with one of its lines or not at all, and a box with what can be typed. -/
def Fits (b : Browser) : Reply → Prop
  | .chosen i => b.question = .menu ∧ i < b.labels.length
  | .cancelled => b.question = .menu
  | .typed t => b.question ≠ .menu ∧ Typable t

/-- Each reply fits the question that the ones before it have led to, and none comes after the end. -/
inductive Follows (env : Environment) : Browser → List Reply → Prop where
  | nil (b : Browser) : Follows env b []
  | last {b b' : Browser} {reply : Reply} {picked : Option Text} (hfits : b.Fits reply)
      (h : b.answer env reply = .ended b' picked) : Follows env b [reply]
  | next {b b' : Browser} {reply : Reply} {rest : List Reply} (hfits : b.Fits reply)
      (h : b.answer env reply = .asking b') (hrest : Follows env b' rest) :
      Follows env b (reply :: rest)

end Browser

namespace Widget

variable {w w' : Widget}

end Widget

namespace Browser

variable {w w' : Widget} {rs : List Reply}

def Progress.replies (env : Environment) : Progress → List Key → List Reply
  | .asking b, keys => b.replies env keys
  | .ended _ _, _ => []

end Browser

end StyleVars
