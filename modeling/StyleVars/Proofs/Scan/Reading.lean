import StyleVars.Scan.Collect

namespace StyleVars.Scan

/-- How far the reading of some stylesheets has come. -/
structure Reading where
  waiting : List Path
  open_ : List Path := []
  found : List (List Text) := []

namespace Reading

variable (env : Environment) (room : Nat)

/-- The next stylesheet is opened while there is room for it, or any of the open ones is done. -/
inductive Step : Reading → Reading → Prop where
  | begin {p : Path} {waiting opened : List Path} {found : List (List Text)}
      (hroom : opened.length < room) :
      Step ⟨p :: waiting, opened, found⟩ ⟨waiting, opened ++ [p], found⟩
  | finish {p : Path} {waiting before after : List Path} {found : List (List Text)}
      {names : List Text} (hread : readProperties env p = .ok names) :
      Step ⟨waiting, before ++ p :: after, found⟩ ⟨waiting, before ++ after, found ++ [names]⟩

/-- The results that the reading can have. It fails as soon as one open stylesheet does. -/
inductive Ends : Reading → Except Error PropertySet → Prop where
  | collected {found : List (List Text)} : Ends ⟨[], [], found⟩ (.ok (.ofList found.flatten))
  | failed {p : Path} {waiting opened : List Path} {found : List (List Text)} {e : Error}
      (hp : p ∈ opened) (hread : readProperties env p = .error e) :
      Ends ⟨waiting, opened, found⟩ (.error e)
  | step {r r' : Reading} {result : Except Error PropertySet} (hstep : Step env room r r')
      (hends : Ends r' result) : Ends r result

end Reading

end StyleVars.Scan
