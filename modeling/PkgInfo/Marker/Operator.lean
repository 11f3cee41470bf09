import PkgInfo.Text.Basic

/-! The comparisons and connectives of environment markers. Texts are compared character by character
in code point order, never as version numbers. -/
namespace PkgInfo.Marker

inductive Operator where
  | equal | notEqual | greater | greaterOrEqual | less | lessOrEqual
  | inside
  | outside
  deriving DecidableEq, Repr

namespace Operator

def all : List Operator :=
  [equal, notEqual, greater, greaterOrEqual, less, lessOrEqual, inside, outside]

def spelling : Operator → Text
  | equal => "==".toList
  | notEqual => "!=".toList
  | greater => ">".toList
  | greaterOrEqual => ">=".toList
  | less => "<".toList
  | lessOrEqual => "<=".toList
  | inside => "in".toList
  | outside => "not in".toList

def apply (op : Operator) (left right : Text) : Bool :=
  match op with
  | equal => left = right
  | notEqual => left ≠ right
  | greater => right < left
  | greaterOrEqual => ¬ left < right
  | less => left < right
  | lessOrEqual => ¬ right < left
  | inside => Text.occursIn left right
  | outside => !Text.occursIn left right

end Operator

inductive Connective where
  | and | or
  deriving DecidableEq, Repr

namespace Connective

def spelling : Connective → Text
  | and => "and".toList
  | or => "or".toList

end Connective
end PkgInfo.Marker
