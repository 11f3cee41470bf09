import PkgInfo.Header.Block
import PkgInfo.Marker.Basic
import PkgInfo.Settings.Basic
import PkgInfo.Storage
import PkgInfo.Version

/-! Everything that reading, changing or writing metadata can fail on, with its wording. -/
namespace PkgInfo

inductive Error where
  | malformed (cause : Header.Malformed)
  | unrecognizedVersion (text : Text)
  | versionConflict (field : Text) (cause : Version.MixedMarkers)
  | marker (cause : Marker.Fault)
  | settings (cause : Settings.Fault)
  | storage (cause : FileFault)
  deriving DecidableEq, Repr

namespace Error

def message : Error → Text
  | malformed cause =>
    "malformed header block at line ".toList ++ (Nat.repr cause.line).toList ++ ": ".toList ++
      cause.fault.message
  | unrecognizedVersion text => "unrecognized metadata version: ".toList ++ Text.quoted text
  | versionConflict field cause =>
    "setting '".toList ++ field ++ "' conflicts with the fields already present: ".toList ++
      cause.message
  | marker cause => cause.message
  | settings cause => "configuration error: ".toList ++ cause.message
  | storage cause => "I/O error: ".toList ++ cause.message

def isMarker : Error → Bool
  | marker _ => true
  | _ => false

def chain (e : Error) : List Text :=
  e.message :: match e with
    | storage cause => [cause.message]
    | _ => []

end Error
end PkgInfo
