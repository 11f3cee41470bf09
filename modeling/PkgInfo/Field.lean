import PkgInfo.Text.Blank

/-! The fields of PKG-INFO metadata, and the names that reach them. A field has one canonical
spelling, which files and messages use, and an underscored one. A name reaches a field when it is
the canonical spelling, or when its key is the underscored one. Other names are kept as they are. -/
namespace PkgInfo

inductive Field where
  | metadataVersion | name | version | platform | supportedPlatform | summary | description
  | keywords | homePage | author | authorEmail | maintainer | maintainerEmail | license
  | classifier | downloadUrl | obsoletesDist | projectUrl | providesDist | requiresDist
  | requiresPython | requiresExternal | obsoletes | provides | requires
  deriving DecidableEq, Repr

namespace Field

def all : List Field :=
  [metadataVersion, name, version, platform, supportedPlatform, summary, description, keywords,
   homePage, author, authorEmail, maintainer, maintainerEmail, license, classifier, downloadUrl,
   obsoletesDist, projectUrl, providesDist, requiresDist, requiresPython, requiresExternal,
   obsoletes, provides, requires]

theorem memAll (f : Field) : f ∈ all := by cases f <;> decide

def label : Field → Text
  | metadataVersion => "Metadata-Version".toList
  | name => "Name".toList
  | version => "Version".toList
  | platform => "Platform".toList
  | supportedPlatform => "Supported-Platform".toList
  | summary => "Summary".toList
  | description => "Description".toList
  | keywords => "Keywords".toList
  | homePage => "Home-page".toList
  | author => "Author".toList
  | authorEmail => "Author-email".toList
  | maintainer => "Maintainer".toList
  | maintainerEmail => "Maintainer-email".toList
  | license => "License".toList
  | classifier => "Classifier".toList
  | downloadUrl => "Download-URL".toList
  | obsoletesDist => "Obsoletes-Dist".toList
  | projectUrl => "Project-URL".toList
  | providesDist => "Provides-Dist".toList
  | requiresDist => "Requires-Dist".toList
  | requiresPython => "Requires-Python".toList
  | requiresExternal => "Requires-External".toList
  | obsoletes => "Obsoletes".toList
  | provides => "Provides".toList
  | requires => "Requires".toList

def underscored : Field → Text
  | metadataVersion => "metadata_version".toList
  | name => "name".toList
  | version => "version".toList
  | platform => "platform".toList
  | supportedPlatform => "supported_platform".toList
  | summary => "summary".toList
  | description => "description".toList
  | keywords => "keywords".toList
  | homePage => "home_page".toList
  | author => "author".toList
  | authorEmail => "author_email".toList
  | maintainer => "maintainer".toList
  | maintainerEmail => "maintainer_email".toList
  | license => "license".toList
  | classifier => "classifier".toList
  | downloadUrl => "download_url".toList
  | obsoletesDist => "obsoletes_dist".toList
  | projectUrl => "project_url".toList
  | providesDist => "provides_dist".toList
  | requiresDist => "requires_dist".toList
  | requiresPython => "requires_python".toList
  | requiresExternal => "requires_external".toList
  | obsoletes => "obsoletes".toList
  | provides => "provides".toList
  | requires => "requires".toList

def labelled? (text : Text) : Option Field := all.find? fun f => f.label = text

def ofUnderscored? (text : Text) : Option Field := all.find? fun f => f.underscored = text

def key (text : Text) : Text :=
  Text.lowered ((Text.trim text).map fun c => if c = '-' then '_' else c)

def named? (text : Text) : Option Field :=
  match labelled? text with
  | some f => some f
  | none => ofUnderscored? (key text)

def canonical (text : Text) : Text :=
  match named? text with
  | some f => f.label
  | none => text

inductive Category where
  | scalarText
  | freeText
  | scalarList
  | elementList
  | predicateList
  | pairList
  deriving DecidableEq, Repr

namespace Category

def isList : Category → Bool
  | scalarText | freeText => false
  | _ => true

def isMarked : Category → Bool
  | freeText => false
  | _ => true

end Category

def category : Field → Category
  | summary | description | author | maintainer => .freeText
  | keywords => .elementList
  | requiresDist | providesDist | obsoletesDist => .predicateList
  | projectUrl => .pairList
  | platform | supportedPlatform | classifier | requires | provides | obsoletes
  | requiresExternal => .scalarList
  | _ => .scalarText

def categoryOf (text : Text) : Category := ((labelled? text).map category).getD .scalarText

theorem labelledLabel (f : Field) : labelled? f.label = some f := by cases f <;> decide

theorem namedLabel (f : Field) : named? f.label = some f := by simp [named?, labelledLabel]

theorem canonicalLabel (f : Field) : canonical f.label = f.label := by simp [canonical, namedLabel]

end Field
end PkgInfo
