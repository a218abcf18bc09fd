import StyleVars.Settings.Field
import StyleVars.Toml.Document

namespace StyleVars

open Toml (Place Item)

namespace ScanOptions

def itemText? : Place × Item → Option Text
  | (_, .text t) => some t
  | _ => none

def Setting.ofItem : Item → Setting
  | .boolean b => .boolean b
  | .array items =>
    match items.mapM itemText? with
    | some items => .texts items
    | none => .other
  | _ => .other

def refusedPlace (field : Field) (place : Place) : Item → Place
  | .array items =>
    match field, items.find? (itemText? · |>.isNone) with
    | .extensions, some (item, _) | .exclude, some (item, _) => item
    | _, _ => place
  | _ => place

def assignItem (options : ScanOptions) (field : Field) (place : Place) (item : Item) :
    Except Place ScanOptions :=
  match field.assign? options (.ofItem item) with
  | some options => .ok options
  | none => .error (refusedPlace field place item)

def assignEntry (options : ScanOptions) (entry : Toml.Key × Place × Item) :
    Except Place ScanOptions :=
  match Field.ofKey? entry.1.name with
  | some field => options.assignItem field entry.2.1 entry.2.2
  | none => .error entry.1.place

/-- Values beyond the last field do not matter. -/
def ofItem (place : Place) : Item → Except Place ScanOptions
  | .table _ entries => entries.foldlM assignEntry {}
  | .array items =>
    (Field.all.zip items).foldlM (fun options (field, v) => options.assignItem field v.1 v.2) {}
  | _ => .error place

end ScanOptions

structure Settings where
  scan : ScanOptions := {}
  deriving DecidableEq

namespace Settings

def scanKey : Text := "scan".toList

def assignEntry (settings : Settings) (entry : Toml.Key × Place × Item) : Except Place Settings :=
  if entry.1.name = scanKey then
    (ScanOptions.ofItem entry.2.1 entry.2.2).map fun scan => { settings with scan }
  else .error entry.1.place

def ofToml (t : Text) : Except Toml.Fault Settings :=
  (Toml.Document.read t >>= fun entries => entries.foldlM assignEntry {}).mapError
    (Toml.Fault.ofPlace t)

end Settings

end StyleVars
