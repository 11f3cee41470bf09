import PkgInfo.Predicate.Constraint
import PkgInfo.Text.Word

/-! Version predicates, the entries of dependency fields: a project name with constraints behind it,
in parentheses or not. A check by them is advisory, so a text that is none can still be stored. -/
namespace PkgInfo

structure Predicate where
  name : Text
  constraints : List Predicate.Constraint
  deriving DecidableEq, Repr

namespace Predicate

def isNameChar (c : Char) : Bool := Text.isWord c || Text.isBlank c || c == '-'

def isDottedChar (c : Char) : Bool := Text.isWord c || c == '.'

def splitName (text : Text) : Text × Text :=
  let behind := text.dropWhile isNameChar
  (text.takeWhile isNameChar ++ behind.takeWhile isDottedChar, behind.dropWhile isDottedChar)

def withoutParentheses (text : Text) : Text :=
  match text with
  | '(' :: rest => if rest.getLast? = some ')' then rest.dropLast else text
  | _ => text

def ofText (text : Text) : Except Fault Predicate :=
  let t := Text.trim text
  let (name, rest) := splitName t
  if t.head?.any Text.isWord ∧ '\n' ∉ rest then
    (Constraint.listOfText (withoutParentheses (Text.trim rest))).map fun constraints =>
      ⟨Text.trim name, constraints⟩
  else .error (.missingName t)

def display (p : Predicate) : Text :=
  p.name ++
    if p.constraints = [] then []
    else " (".toList ++ Text.joined ", ".toList (p.constraints.map Constraint.display) ++ [')']

def isVersion (text : Text) : Bool := (Number.ofText? text).isSome

def isVersionList (text : Text) : Bool :=
  match Constraint.listOfText text with
  | .ok _ => true
  | .error _ => false

def isPredicate (text : Text) : Bool :=
  match ofText text with
  | .ok _ => true
  | .error _ => false

end Predicate
end PkgInfo
