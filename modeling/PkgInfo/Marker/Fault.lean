import PkgInfo.Marker.Expr

/-! Why a text is no marker, and why a marker has no truth value, with the wording of each. -/
namespace PkgInfo.Marker

inductive Expected where
  | operand | operator | connective
  deriving DecidableEq, Repr

def Expected.message : Expected → Text
  | operand => "a name or a string".toList
  | operator => "a comparison operator".toList
  | connective => "'and', 'or' or end of marker".toList

def Token.description : Token → Text
  | .name text => "name '".toList ++ text ++ "'".toList
  | .literal raw => "string ".toList ++ raw
  | .operator op => "operator '".toList ++ op.spelling ++ "'".toList
  | .connective k => "'".toList ++ k.spelling ++ "'".toList
  | .stop => "end of marker".toList

inductive SyntaxFault where
  | lexical (fault : LexFault) (offset : Nat) (source : Text)
  | unexpected (expected : Expected) (found : Token)
  | empty
  deriving DecidableEq, Repr

def SyntaxFault.message : SyntaxFault → Text
  | lexical fault offset source =>
    fault.message ++ " at offset ".toList ++ (Nat.repr offset).toList ++ " in ".toList ++
      Text.quoted source
  | unexpected expected found =>
    "expected ".toList ++ expected.message ++ ", found ".toList ++ found.description
  | empty => "empty marker".toList

inductive EvaluationFault where
  | twoLiterals (c : Comparison)
  | noLiteral (c : Comparison)
  | unknownVariable (name : Text)
  | noVariable (raw : Text)
  deriving DecidableEq, Repr

def EvaluationFault.message : EvaluationFault → Text
  | twoLiterals c => "'".toList ++ c.spelling ++ "' compares two literals".toList
  | noLiteral c => "'".toList ++ c.spelling ++ "' has no quoted literal".toList
  | unknownVariable name => "'".toList ++ name ++ "' is not a known variable".toList
  | noVariable raw => raw ++ " is not a valid variable".toList

inductive Fault where
  | malformed (cause : SyntaxFault)
  | undecided (cause : EvaluationFault)
  deriving DecidableEq, Repr

def Fault.message : Fault → Text
  | malformed cause => "invalid environment marker: ".toList ++ cause.message
  | undecided cause => "cannot evaluate environment marker: ".toList ++ cause.message

end PkgInfo.Marker
