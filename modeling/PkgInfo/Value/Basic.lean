import PkgInfo.Field
import PkgInfo.Value.Fold
import PkgInfo.Value.Split

/-! Values of fields: one text or texts in order, whichever the field's category holds. -/
namespace PkgInfo

inductive Value where
  | text (t : Text)
  | list (items : List Text)
  deriving DecidableEq, Repr

namespace Value

def unknown : Text := "UNKNOWN".toList

def default (category : Field.Category) : Value :=
  if category.isList then list [] else text unknown

def asText : Value → Text
  | text t => t
  | list items => Text.joined [','] items

def asList : Value → List Text
  | text t => [t]
  | list items => items

def coerce (category : Field.Category) : Value → Value
  | list items => if category.isList then list items else text (Text.joined [','] items)
  | text t =>
    match category with
    | .scalarText | .freeText => text t
    | .predicateList => list (splitTopLevelCommas t)
    | .pairList => list (tidy [t])
    | .scalarList | .elementList => list (splitCommas t)

end Value
end PkgInfo
