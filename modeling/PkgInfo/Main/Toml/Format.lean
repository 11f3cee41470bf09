import PkgInfo.Main.Toml.Document
import PkgInfo.Settings.Basic

/-! Settings in TOML: one switch and one table of variables, each at most once and in any of the forms
that the language has for it. Nothing else may stand in the document. -/
namespace PkgInfo.Settings

inductive Form where
  | header | inline | dotted
  deriving DecidableEq, Repr

structure Draft where
  switch : Option Bool
  form : Option Form
  context : Marker.Context
  inVariables : Bool

namespace Draft

def start : Draft := ⟨none, none, ∅, false⟩

def switchKey : Text := "platform_dependent".toList

def variablesKey : Text := "variables".toList

def addVariable (d : Draft) (name value : Text) : Option Draft :=
  if d.context.contains name then none
  else some {d with context := d.context.insert name value}

def addEntries (d : Draft) : List (List Text × Text) → Option Draft
  | [] => some d
  | ([name], value) :: rest => (d.addVariable name value).bind (addEntries · rest)
  | _ :: _ => none

def take (d : Draft) : Statement → Option Draft
  | .header key =>
    if key = [variablesKey] ∧ d.form = none then
      some {d with form := some .header, inVariables := true}
    else none
  | .assign key item =>
    if d.inVariables then
      match key, item with
      | [name], .string value => d.addVariable name value
      | _, _ => none
    else
      match key, item with
      | [first], .boolean value =>
        if first = switchKey ∧ d.switch = none then some {d with switch := some value} else none
      | [first], .table entries =>
        if first = variablesKey ∧ d.form = none then
          {d with form := some .inline}.addEntries entries
        else none
      | [first, name], .string value =>
        if first = variablesKey ∧ (d.form = none ∨ d.form = some .dotted) then
          {d with form := some .dotted}.addVariable name value
        else none
      | _, _ => none

def takeAll (d : Draft) : List Statement → Option Draft
  | [] => some d
  | s :: rest => (d.take s).bind (takeAll · rest)

end Draft

def read? (document : Text) : Option Settings :=
  (statements? document).bind fun statements =>
    (Draft.start.takeAll statements).map fun d => ⟨d.switch.getD false, d.context⟩

@[reducible] def toml : SettingsFormat where
  read document :=
    match read? document with
    | some s => .ok s
    | none => .error "TOML parse error".toList

end PkgInfo.Settings
