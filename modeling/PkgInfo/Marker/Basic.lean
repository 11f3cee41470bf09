import PkgInfo.Marker.Evaluation

/-! A marker with its source, as it stands behind the semicolon of a value. -/
namespace PkgInfo

structure Marker where
  source : Text
  expr : Marker.Expr
  deriving DecidableEq, Repr

namespace Marker

def ofText (source : Text) : Except SyntaxFault Marker :=
  (parse source).map fun expr => ⟨Text.trim source, expr⟩

def interpret (e : Environment) (context : Option Context) (source : Text) : Except Fault Bool :=
  match parse source with
  | .error cause => .error (.malformed cause)
  | .ok expr =>
    match expr.evaluate e context with
    | .error cause => .error (.undecided cause)
    | .ok holds => .ok holds

end Marker
end PkgInfo
