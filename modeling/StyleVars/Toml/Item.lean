import StyleVars.Toml.Reader

namespace StyleVars.Toml

structure Key where
  name : Text
  place : Place

/-- How a table came about, which decides who may add to it. -/
inductive Form where
  | inline
  | headed
  | implied
  | dotted
  deriving DecidableEq

inductive Item where
  | text (t : Text)
  | boolean (b : Bool)
  | number
  | dateTime
  | array (items : List (Place × Item))
  | table (form : Form) (entries : List (Key × Place × Item))
  | tables (last : Place × List (Key × Place × Item))
      (above : List (Place × List (Key × Place × Item)))
  deriving Inhabited

/-- The entries of a table in the order in which they were made. -/
abbrev Entries := List (Key × Place × Item)

namespace Entries

def item? (entries : Entries) (name : Text) : Option Item :=
  (List.find? (·.1.name == name) entries).map (·.2.2)

def setItem (entries : Entries) (name : Text) (item : Item) : Entries :=
  entries.map fun (key, place, old) => (key, place, if key.name == name then item else old)

def without (entries : Entries) (name : Text) : Entries := entries.filter (·.1.name != name)

def add? (entries : Entries) (key : Key) (place : Place) (item : Item) : Option Entries :=
  if (entries.item? key.name).isSome then none else some (entries ++ [(key, place, item)])

/-- Changes the table that a header's keys lead to, in which each key goes on from the last table
of its name. Tables that are missing are implied. -/
def within? (change : Entries → Option Entries) : List Key → Entries → Option Entries
  | [], entries => change entries
  | key :: path, entries =>
    match entries.item? key.name with
    | none => do
      let inner ← within? change path []
      some (entries ++ [(key, key.place, .table .implied inner)])
    | some (.table form inner) =>
      if form = .inline then none
      else do
        let inner ← within? change path inner
        some (entries.setItem key.name (.table form inner))
    | some (.tables (place, inner) above) => do
      let inner ← within? change path inner
      some (entries.setItem key.name (.tables (place, inner) above))
    | _ => none

/-- Adds an entry below the table that a dotted key leads to. Tables that are missing are made for
it, and the last one has to be of that kind. -/
def addDotted? (key : Key) (place : Place) (item : Item) : List Key → Entries → Option Entries
  | [], entries => entries.add? key place item
  | step :: path, entries =>
    match entries.item? step.name with
    | none => do
      let inner ← addDotted? key place item path []
      some (entries ++ [(step, step.place, .table .dotted inner)])
    | some (.table form inner) =>
      if form = .dotted || (form = .implied && !path.isEmpty) then do
        let inner ← addDotted? key place item path inner
        some (entries.setItem step.name (.table form inner))
      else none
    | some (.tables (place', inner) above) =>
      if path.isEmpty then none
      else do
        let inner ← addDotted? key place item path inner
        some (entries.setItem step.name (.tables (place', inner) above))
    | _ => none

/-- Opens the table of a header. One that was only implied so far moves to the end. -/
def openTable? (key : Key) (place : Place) (entries : Entries) : Option Entries :=
  match entries.item? key.name with
  | none => some (entries ++ [(key, place, .table .headed [])])
  | some (.table .implied inner) =>
    some (entries.without key.name ++ [(key, place, .table .headed inner)])
  | _ => none

def openNext? (key : Key) (place : Place) (entries : Entries) : Option Entries :=
  match entries.item? key.name with
  | none => some (entries ++ [(key, place, .tables (place, []) [])])
  | some (.tables last above) =>
    some (entries.setItem key.name (.tables (place, []) (last :: above)))
  | _ => none

end Entries

end StyleVars.Toml
