import PkgInfo.Outcome
import PkgInfo.Text.Utf8

/-! Where files are kept: the three things that commands ask of it, and a directory as a value that
answers them. -/
namespace PkgInfo

inductive FileFault where
  | notFound | notDirectory | isDirectory | occupied
  | notText
  | nulInPath
  | other (words : Text)
  deriving DecidableEq, Repr

def FileFault.message : FileFault → Text
  | notFound => "No such file or directory (os error 2)".toList
  | notDirectory => "Not a directory (os error 20)".toList
  | isDirectory => "Is a directory (os error 21)".toList
  | occupied => "File exists (os error 17)".toList
  | notText => "stream did not contain valid UTF-8".toList
  | nulInPath => "file name contained an unexpected NUL byte".toList
  | other words => words

class Storage (m : Type → Type) where
  read : Text → m (Except FileFault Bytes)
  write : Text → Bytes → m (Except FileFault Unit)
  makeFolders : Text → m (Except FileFault Unit)

def pathWithin (folder name : Text) : Text :=
  if folder = [] then name
  else if folder.getLast? = some '/' then folder ++ name
  else folder ++ '/' :: name

inductive Entry where
  | file (content : Bytes)
  | folder
  deriving DecidableEq, Repr

structure Directory where
  entries : List (List Text × Entry)
  deriving DecidableEq, Repr

namespace Directory

def empty : Directory := ⟨[]⟩

def find? (d : Directory) (place : List Text) : Option Entry :=
  if place = [] then some .folder else d.entries.lookup place

def put (d : Directory) (place : List Text) (entry : Entry) : Directory :=
  ⟨(place, entry) :: d.entries⟩

def walk (d : Directory) (place : List Text) : List Text → Except FileFault (List Text)
  | [] => .ok place
  | name :: rest =>
    match d.find? place with
    | none => .error .notFound
    | some (.file _) => .error .notDirectory
    | some .folder =>
      if name = [] ∨ name = ['.'] then walk d place rest
      else if name = ['.', '.'] then walk d place.dropLast rest
      else walk d (place ++ [name]) rest

def resolve (d : Directory) (path : Text) : Except FileFault (List Text) :=
  if '\x00' ∈ path then .error .nulInPath
  else match path with
    | [] | '/' :: _ => .error .notFound
    | _ => d.walk [] (Text.pieces '/' path)

def read (d : Directory) (path : Text) : Except FileFault Bytes :=
  match d.resolve path with
  | .error fault => .error fault
  | .ok place =>
    match d.find? place with
    | none => .error .notFound
    | some .folder => .error .isDirectory
    | some (.file content) => .ok content

def write (d : Directory) (path : Text) (content : Bytes) : Except FileFault Directory :=
  let named := path.reverse.dropWhile (· = '/') |>.reverse
  match d.resolve named with
  | .error fault => .error fault
  | .ok place =>
    match d.find? place, decide (named = path) with
    | some .folder, _ => .error .isDirectory
    | some (.file _), true => .ok (d.put place (.file content))
    | some (.file _), false => .error .notDirectory
    | none, true => .ok (d.put place (.file content))
    | none, false => .error .isDirectory

def makeAlong (d : Directory) (place : List Text) : List Text → Except FileFault Directory
  | [] => .ok d
  | name :: rest =>
    if name = [] ∨ name = ['.'] then makeAlong d place rest
    else if name = ['.', '.'] then makeAlong d place.dropLast rest
    else
      let next := place ++ [name]
      match d.find? next with
      | some .folder => makeAlong d next rest
      | none => makeAlong (d.put next .folder) next rest
      | some (.file _) => .error (if rest.all (· = []) then .occupied else .notDirectory)

def makeFolders (d : Directory) (path : Text) : Except FileFault Directory :=
  if '\x00' ∈ path then .error .nulInPath
  else match path with
    | '/' :: _ => .error .notFound
    | _ => d.makeAlong [] (Text.pieces '/' path)

def changesSince (before after : Directory) : List (Text × Bytes) :=
  (after.entries.map Prod.fst).eraseDups.filterMap fun place =>
    match after.find? place with
    | some (.file content) =>
      if before.find? place = some (.file content) then none
      else some (Text.joined ['/'] place, content)
    | _ => none

def settle (d : Directory) : Except FileFault Directory → Except FileFault Unit × Directory
  | .ok after => (.ok (), after)
  | .error fault => (.error fault, d)

instance : Storage (StateM Directory) where
  read path := fun d => (d.read path, d)
  write path content := fun d => d.settle (d.write path content)
  makeFolders path := fun d => d.settle (d.makeFolders path)

end Directory
end PkgInfo
