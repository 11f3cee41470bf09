import PkgInfo.Field
import PkgInfo.Outcome

/-! The three metadata versions, the fields each knows in the order they are written, and the version
that a set of fields calls for. Some fields mark a version: their presence alone asks for it. Fields
that mark 1.1 are unknown to 1.2 and the other way round, so the two kinds cannot stand together. -/
namespace PkgInfo

inductive Version where
  | v10 | v11 | v12
  deriving DecidableEq, Repr

namespace Version
open PkgInfo.Field

def all : List Version := [v10, v11, v12]

def rank : Version → Nat
  | v10 => 0
  | v11 => 1
  | v12 => 2

instance : LE Version := ⟨fun a b => a.rank ≤ b.rank⟩
instance (a b : Version) : Decidable (a ≤ b) := inferInstanceAs (Decidable (a.rank ≤ b.rank))

def text : Version → Text
  | v10 => "1.0".toList
  | v11 => "1.1".toList
  | v12 => "1.2".toList

def ofText? (value : Text) : Option Version := all.find? fun v => v.text = Text.trim value

def fields : Version → List Field
  | v10 =>
    [metadataVersion, name, version, platform, summary, description, keywords, homePage, author,
     authorEmail, license]
  | v11 =>
    [metadataVersion, name, version, platform, supportedPlatform, summary, description, keywords,
     homePage, author, authorEmail, license, classifier, downloadUrl, obsoletes, provides, requires]
  | v12 =>
    [metadataVersion, name, version, platform, supportedPlatform, summary, description, keywords,
     homePage, author, authorEmail, maintainer, maintainerEmail, license, classifier, downloadUrl,
     obsoletesDist, projectUrl, providesDist, requiresDist, requiresPython, requiresExternal]

def markers : Version → List Field
  | v10 => []
  | v11 => [obsoletes, provides, requires]
  | v12 =>
    [providesDist, requiresDist, requiresPython, obsoletesDist, requiresExternal, maintainer,
     maintainerEmail, projectUrl]

def markedBy? (f : Field) : Option Version :=
  if f ∈ markers v12 then some v12 else if f ∈ markers v11 then some v11 else none

def Holds (v : Version) (present : List Field) : Prop := ∀ f ∈ present, f ∈ v.fields

instance (v : Version) (present : List Field) : Decidable (v.Holds present) :=
  inferInstanceAs (Decidable (∀ f ∈ present, f ∈ v.fields))

structure MixedMarkers where
  older : Field
  newer : Field
  deriving DecidableEq, Repr

def MixedMarkers.message (m : MixedMarkers) : Text :=
  "'".toList ++ m.older.label ++ "' requires metadata 1.1 but '".toList ++ m.newer.label ++
    "' requires 1.2".toList

def infer (present : List Field) : Except MixedMarkers Version :=
  match present.find? (· ∈ markers v11), present.find? (· ∈ markers v12) with
  | some older, some newer => .error ⟨older, newer⟩
  | none, some _ => .ok v12
  | some _, none => .ok v11
  | none, none => .ok ((all.find? fun v => v.Holds present).getD v12)

def inferNames (names : List Text) : Except MixedMarkers Version :=
  infer (names.filterMap labelled?)

end Version
end PkgInfo
