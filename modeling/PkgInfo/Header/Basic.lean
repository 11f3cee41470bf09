import PkgInfo.Text.Basic

/-! Headers in order, and look-up by a name whose ASCII letters may be in either case. -/
namespace PkgInfo

structure Header where
  name : Text
  value : Text
  deriving DecidableEq, Repr

namespace Header

def valuesOf (headers : List Header) (name : Text) : List Text :=
  (headers.filter fun h => decide (Text.SameLetters h.name name)).map value

def first? (headers : List Header) (name : Text) : Option Text := (valuesOf headers name).head?

def contains (headers : List Header) (name : Text) : Bool := (first? headers name).isSome

end Header
end PkgInfo
