import PkgInfo.Error
import PkgInfo.Predicate.Basic
import PkgInfo.Value.Basic

/-! The metadata of one distribution. A record holds values under canonical names, and the version
that its fields call for. A change that would leave no version able to hold the fields is refused and
nothing of it is done. Values that look wrong are stored all the same, with a warning. -/
namespace PkgInfo

inductive Warning where
  | hidden (field value : Text) (cause : Marker.Fault)
  | badPredicate (project item field : Text)
  | badVersionList (project value field : Text)
  | badVersion (project value field : Text)
  deriving DecidableEq, Repr

namespace Warning

def complaint (project value what field : Text) : Text :=
  project ++ ": ".toList ++ Text.quoted value ++ " is not a ".toList ++ what ++ " (field ".toList ++
    field ++ ")".toList

def message : Warning → Text
  | hidden field value cause =>
    "Hiding ".toList ++ field ++ " value ".toList ++ Text.quoted value ++ ": ".toList ++ cause.message
  | badPredicate project item field => complaint project item "valid predicate".toList field
  | badVersionList project value field => complaint project value "valid version list".toList field
  | badVersion project value field => complaint project value "normalized version".toList field

end Warning

structure Record where
  fields : Table Value
  version : Version
  platformDependent : Bool
  context : Option Marker.Context
  isPredicate : Text → Bool

-- A failure leaves the record as it was where the change stopped.
structure Edit where
  record : Record
  failure : Option Error
  log : List Warning

def Edit.after (e : Edit) (earlier : List Warning) : Edit := {e with log := earlier ++ e.log}

structure Removal where
  record : Record
  value : Option Value

instance : Coe Removal Record := ⟨Removal.record⟩

namespace Record

def empty : Record := ⟨∅, .v10, false, none, Predicate.isPredicate⟩

def raw? (r : Record) (name : Text) : Option Value := r.fields.find? (Field.canonical name)

def contains (r : Record) (name : Text) : Bool :=
  let field := Field.canonical name
  field = Field.metadataVersion.label || r.fields.contains field

def stored (field : Text) (value : Value) : Value :=
  match value.coerce (Field.categoryOf field) with
  | .text t => .text (if field = Field.description.label then Value.unfold t else t)
  | .list items => .list items

def project (r : Record) : Text :=
  match r.fields.find? Field.name.label with
  | some (.text t) => t
  | _ => Value.unknown

def complaints (r : Record) (field : Text) : Value → List Warning
  | .list items =>
    if Field.categoryOf field = .predicateList then
      (items.filter fun item => !r.isPredicate (Value.splitMarker item).1).map fun item =>
        .badPredicate r.project item field
    else []
  | .text t =>
    let value := (Value.splitMarker t).1
    if field = Field.requiresPython.label then
      if Predicate.isVersionList value then [] else [.badVersionList r.project t field]
    else if field = Field.version.label then
      if Predicate.isVersion value then [] else [.badVersion r.project t field]
    else []

def set (r : Record) (name : Text) (value : Value) : Edit :=
  let field := Field.canonical name
  if field = Field.metadataVersion.label then ⟨r, none, []⟩
  else
    let value := stored field value
    let log := r.complaints field value
    match Version.inferNames (r.fields.keys ++ [field]) with
    | .error cause => ⟨r, some (.versionConflict field cause), log⟩
    | .ok version => ⟨{r with fields := r.fields.insert field value, version}, none, log⟩

def update (r : Record) : List (Text × Value) → Edit
  | [] => ⟨r, none, []⟩
  | (name, value) :: rest =>
    let e := r.set name value
    match e.failure with
    | some _ => e
    | none => (update e.record rest).after e.log

def remove (r : Record) (name : Text) : Removal :=
  let field := Field.canonical name
  match r.fields.find? field with
  | none => ⟨r, none⟩
  | some value =>
    let fields := r.fields.erase field
    match Version.inferNames fields.keys with
    | .ok version => ⟨{r with fields, version}, some value⟩
    | .error _ => ⟨{r with fields}, some value⟩

def keys (r : Record) : List Field := r.version.fields

end Record
end PkgInfo
