import PkgInfo.Marker.Builder
import PkgInfo.Table

/-! Evaluating markers. A comparison sets one variable against one literal. Variables are looked up
in the given context first and in the built-in table second, which describes the host. -/
namespace PkgInfo

class Host where
  system : Text
  architecture : Text

@[reducible] def Host.linux : Host := ⟨"linux".toList, "x86_64".toList⟩

namespace Marker

structure Environment where
  sysPlatform : Text
  pythonVersion : Text
  pythonFullVersion : Text
  osName : Text
  platformVersion : Text
  platformMachine : Text
  deriving DecidableEq, Repr

namespace Environment

def platformOf (system : Text) : Text :=
  if system = "macos".toList then "darwin".toList
  else if system = "windows".toList then "win32".toList
  else system

def detect (system architecture : Text) : Environment where
  sysPlatform := platformOf system
  pythonVersion := "3.12".toList
  pythonFullVersion := "3.12.0".toList
  osName := if system = "windows".toList then "nt".toList else "posix".toList
  platformVersion := []
  platformMachine := architecture

def host [Host] : Environment := detect Host.system Host.architecture

def find? (e : Environment) (name : Text) : Option Text :=
  if name = "sys.platform".toList then some e.sysPlatform
  else if name = "python_version".toList then some e.pythonVersion
  else if name = "python_full_version".toList then some e.pythonFullVersion
  else if name = "os.name".toList then some e.osName
  else if name = "platform.version".toList then some e.platformVersion
  else if name = "platform.machine".toList then some e.platformMachine
  else none

end Environment

abbrev Context := Table Text

def resolve? (e : Environment) (context : Option Context) (name : Text) : Option Text :=
  (context.bind (·.find? name)).or (e.find? name)

def Operand.resolve (e : Environment) (context : Option Context) :
    Operand → Except EvaluationFault Text
  | named name =>
    match resolve? e context name with
    | some value => .ok value
    | none => .error (.unknownVariable name)
  | literal raw => .error (.noVariable raw)

def Comparison.evaluate (e : Environment) (context : Option Context) (c : Comparison) :
    Except EvaluationFault Bool :=
  match c.left.value?, c.right.value? with
  | some _, some _ => .error (.twoLiterals c)
  | some left, none => (c.right.resolve e context).map fun right => c.op.apply left right
  | none, some right => (c.left.resolve e context).map fun left => c.op.apply left right
  | none, none => .error (.noLiteral c)

def Expr.evaluate (e : Environment) (context : Option Context) : Expr → Except EvaluationFault Bool
  | compare c => c.evaluate e context
  | join k left right =>
    match left.evaluate e context, k with
    | .error fault, _ => .error fault
    | .ok false, .and => .ok false
    | .ok true, .or => .ok true
    | .ok _, _ => right.evaluate e context

end Marker
end PkgInfo
