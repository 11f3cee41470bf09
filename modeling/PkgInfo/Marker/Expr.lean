import PkgInfo.Marker.Operator
import PkgInfo.Marker.Token

/-! Marker expressions: comparisons of two operands, put together by connectives. Neither connective
binds more tightly, and there are no parentheses in the written form. -/
namespace PkgInfo.Marker

inductive Operand where
  | named (name : Text)
  | literal (raw : Text)
  deriving DecidableEq, Repr

namespace Operand

def value? : Operand → Option Text
  | literal raw => if isQuoted raw then some (raw.drop 1).dropLast else none
  | named _ => none

def spelling : Operand → Text
  | named name => name
  | literal raw => raw

end Operand

structure Comparison where
  left : Operand
  op : Operator
  right : Operand
  deriving DecidableEq, Repr

def Comparison.spelling (c : Comparison) : Text :=
  c.left.spelling ++ ' ' :: c.op.spelling ++ ' ' :: c.right.spelling

inductive Expr where
  | compare (c : Comparison)
  | join (k : Connective) (left right : Expr)
  deriving DecidableEq, Repr

namespace Expr

def grouped : Expr → Text
  | compare c => c.spelling
  | join k left right =>
    '(' :: left.grouped ++ ' ' :: k.spelling ++ ' ' :: right.grouped ++ [')']

def extend (before : Option (Expr × Connective)) (c : Comparison) : Expr :=
  match before with
  | some (left, k) => join k left (compare c)
  | none => compare c

end Expr
end PkgInfo.Marker
