import PkgInfo.Outcome
import PkgInfo.Predicate.Number
import PkgInfo.Text.Quoted

/-! Version constraints: a relation and a version number. A number alone asks for that very version. -/
namespace PkgInfo.Predicate

inductive Relation where
  | less | lessOrEqual | greater | greaterOrEqual | equal | notEqual
  deriving DecidableEq, Repr

namespace Relation

def spelling : Relation → Text
  | less => "<".toList
  | lessOrEqual => "<=".toList
  | greater => ">".toList
  | greaterOrEqual => ">=".toList
  | equal => "==".toList
  | notEqual => "!=".toList

-- Each relation stands before those its spelling starts with.
def all : List Relation := [lessOrEqual, greaterOrEqual, less, greater, notEqual, equal]

end Relation

inductive Fault where
  | missingName (text : Text)
  | irrational (version : Text)
  deriving DecidableEq, Repr

def Fault.message : Fault → Text
  | missingName text => "no project name in predicate ".toList ++ Text.quoted text
  | irrational version => Text.quoted version ++ " is not a normalized version".toList

structure Constraint where
  relation : Relation
  number : Number
  deriving DecidableEq, Repr

namespace Constraint

def display (c : Constraint) : Text := c.relation.spelling ++ c.number.text

def operand? (behind : Text) : Option Text :=
  let word := Text.trimStart behind
  if word ≠ [] ∧ word.all fun c => !Text.isBlank c && c != ',' then some word else none

def split? (text : Text) : Option (Relation × Text) :=
  Relation.all.findSome? fun r =>
    (Text.stripLead? r.spelling text).bind fun behind => (operand? behind).map fun word => (r, word)

def ofText (text : Text) : Except Fault Constraint :=
  let t := Text.trim text
  let (relation, version) := (split? t).getD (.equal, t)
  match Number.ofText? version with
  | some number => .ok ⟨relation, number⟩
  | none => .error (.irrational version)

def listOfText (text : Text) : Except Fault (List Constraint) :=
  ((Text.pieces ',' text).filter fun piece => Text.trim piece ≠ []).mapM ofText

end Constraint
end PkgInfo.Predicate
