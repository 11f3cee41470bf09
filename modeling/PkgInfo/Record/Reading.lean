import PkgInfo.Record.Basic

/-! Reading fields. Where the record depends on the platform, a value whose marker is false is left
out. A marker that cannot be decided hides its value with a warning, or is an error to a strict
reader. -/
namespace PkgInfo

inductive Verdict where
  | keep (value : Text)
  | drop
  | unclear (value : Text) (cause : Marker.Fault)
  deriving DecidableEq, Repr

namespace Record
variable [Host]

def judge (r : Record) (text : Text) : Verdict :=
  match Value.splitMarker text with
  | (value, none) => .keep value
  | (value, some marker) =>
    match Marker.interpret .host r.context marker with
    | .ok true => .keep value
    | .ok false => .drop
    | .error cause => .unclear value cause

def screen (r : Record) (field text : Text) : Logged Warning (Option Text) :=
  match r.judge text with
  | .keep value => pure (some value)
  | .drop => pure none
  | .unclear value cause => do
    Logged.note (.hidden field value cause)
    pure none

def screenStrictly (r : Record) (text : Text) : Except Error (Option Text) :=
  match r.judge text with
  | .keep value => .ok (some value)
  | .drop => .ok none
  | .unclear _ cause => .error (.marker cause)

def screens (r : Record) (field : Text) : Bool :=
  r.platformDependent && (Field.categoryOf field).isMarked

def textOr (field : Text) (kept : Option Text) : Value :=
  match kept with
  | some text => .text text
  | none => Value.default (Field.categoryOf field)

def get (r : Record) (name : Text) : Logged Warning Value :=
  let field := Field.canonical name
  if field = Field.metadataVersion.label then pure (.text r.version.text)
  else match r.fields.find? field with
    | none => pure (Value.default (Field.categoryOf field))
    | some value =>
      if r.screens field then
        match value with
        | .text t => do
          let kept ← r.screen field t
          pure (textOr field kept)
        | .list items => do
          let kept ← Logged.each (r.screen field) items
          pure (.list (kept.filterMap id))
      else pure value

def tryGet (r : Record) (name : Text) : Except Error Value :=
  let field := Field.canonical name
  if field = Field.metadataVersion.label then .ok (.text r.version.text)
  else match r.fields.find? field with
    | none => .ok (Value.default (Field.categoryOf field))
    | some value =>
      if r.screens field then
        match value with
        | .text t => (r.screenStrictly t).map (textOr field)
        | .list items => (items.mapM r.screenStrictly).map fun kept => .list (kept.filterMap id)
      else .ok value

def getText (r : Record) (name : Text) : Logged Warning Text := do
  let value ← r.get name
  pure value.asText

def getList (r : Record) (name : Text) : Logged Warning (List Text) := do
  let value ← r.get name
  pure value.asList

def items (r : Record) : Logged Warning (List (Field × Value)) :=
  Logged.each (fun f => do let value ← r.get f.label; pure (f, value)) r.keys

def labelledAddress (entry : Text) : Text × Text :=
  match Text.splitOnce ',' entry with
  | some (label, address) => (Text.trim label, Text.trim address)
  | none => (Text.trim entry, [])

def projectUrls (r : Record) : Logged Warning (List (Text × Text)) := do
  let entries ← r.getList Field.projectUrl.label
  pure (entries.map labelledAddress)

def fullName (r : Record) : Logged Warning Text := do
  let name ← r.getText Field.name.label
  let version ← r.getText Field.version.label
  pure (name ++ '-' :: version)

def firstKnown (r : Record) : List Field → Logged Warning Text
  | [] => pure Value.unknown
  | f :: rest => do
    let value ← r.getText f.label
    if value = Value.unknown then firstKnown r rest else pure value

def contact (r : Record) : Logged Warning Text := r.firstKnown [.maintainer, .author]

def contactEmail (r : Record) : Logged Warning Text := r.firstKnown [.maintainerEmail, .authorEmail]

end Record
end PkgInfo
