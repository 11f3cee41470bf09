import PkgInfo.Outcome
import PkgInfo.Table
import PkgInfo.Value.Basic

/-! The commands and what comes with them. Reading the words of a command line and printing JSON are left
open; how a variable is given on the command line is not. -/
namespace PkgInfo

structure MarkerOptions where
  config : Option Text
  bindings : List (Text × Text)
  deriving DecidableEq, Repr

inductive Command where
  | show (file : Text) (fields : List Text) (platformDependent : Bool) (markers : MarkerOptions)
      (json : Bool)
  | check (file : Text)
  | eval (marker : Text) (markers : MarkerOptions)
  | normalize (file : Text) (output : Option Text)
  deriving DecidableEq, Repr

class CommandLine (ε : outParam Type) where
  command : List Text → Except ε Command

class JsonPrinter where
  pretty : Table Value → Text

namespace Command

inductive BindingFault where
  | noEquals (text : Text)
  | noName (text : Text)
  deriving DecidableEq, Repr

def BindingFault.message : BindingFault → Text
  | noEquals text => "expected NAME=VALUE, got '".toList ++ text ++ "'".toList
  | noName text => "missing variable name in '".toList ++ text ++ "'".toList

def bindingOfText (text : Text) : Except BindingFault (Text × Text) :=
  match Text.splitOnce '=' text with
  | none => .error (.noEquals text)
  | some (front, value) =>
    let name := Text.trim front
    if name = [] then .error (.noName text) else .ok (name, value)

end Command
end PkgInfo
