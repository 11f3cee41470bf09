import PkgInfo.Record.Reading

/-! Checking a record: required fields that are not set, what a critic of prose finds in the
description, and values of 1.2 fields that are not in order. -/
namespace PkgInfo

inductive Severity where
  | info | warning | error | severe
  deriving DecidableEq, Repr

def Severity.label : Severity → Text
  | info => "info".toList
  | warning => "warning".toList
  | error => "error".toList
  | severe => "severe".toList

abbrev Critic := Text → List (Severity × Text)

inductive Finding where
  | prose (severity : Severity) (message : Text)
  | wrongValue (field : Field) (value : Text)
  deriving DecidableEq, Repr

def Finding.message : Finding → Text
  | prose severity message => "Description ".toList ++ severity.label ++ ": ".toList ++ message
  | wrongValue field value => "Wrong value for '".toList ++ field.label ++ "': ".toList ++ value

structure Report where
  missing : List Field
  findings : List Finding
  deriving DecidableEq, Repr

def Report.isOk (r : Report) : Bool := r.missing.isEmpty && r.findings.isEmpty

namespace Record
variable [Host]

def required : List Field := [.name, .version, .homePage]

def missingOf (r : Record) (f : Field) : Logged Warning (Option Field) := do
  let text ← r.getText f.label
  pure (if text = Value.unknown then some f else none)

def proseFindings (r : Record) (critic : Option Critic) : Logged Warning (List Finding) :=
  match critic with
  | none => pure []
  | some critic =>
    if r.contains Field.description.label then do
      let text ← r.getText Field.description.label
      pure ((critic text).map fun (severity, message) => .prose severity message)
    else pure []

def dependencyFinding (r : Record) (f : Field) : Logged Warning (Option Finding) := do
  let entries ← r.getList f.label
  pure (if entries.any fun entry => !r.isPredicate (Value.splitMarker entry).1 then
    some (.wrongValue f (Text.joined ", ".toList entries)) else none)

def textFinding (r : Record) (f : Field) (inOrder : Text → Bool) :
    Logged Warning (Option Finding) := do
  let text ← r.getText f.label
  pure (if text ≠ Value.unknown ∧ !inOrder (Value.splitMarker text).1 then
    some (.wrongValue f text) else none)

def valueFindings (r : Record) : Logged Warning (List Finding) :=
  if r.version = .v12 then do
    let dependencies ← Logged.each r.dependencyFinding [.requiresDist, .providesDist, .obsoletesDist]
    let python ← r.textFinding .requiresPython Predicate.isVersionList
    let version ← r.textFinding .version Predicate.isVersion
    pure ((dependencies ++ [python, version]).filterMap id)
  else pure []

def check (r : Record) (critic : Option Critic) : Logged Warning Report := do
  let missing ← Logged.each r.missingOf required
  let prose ← r.proseFindings critic
  let values ← r.valueFindings
  pure ⟨missing.filterMap id, prose ++ values⟩

end Record
end PkgInfo
