import PkgInfo.Marker.Lexer

/-! Building an expression from tokens, one token at a time. The builder collects a left operand, an
operator and a right operand; a connective makes all that is built so far its left side, so
expressions group from left to right. A token out of place is refused, and building can go on after
it: what is built stays, and the builder then waits for a connective. -/
namespace PkgInfo.Marker

inductive Stage where
  | left
  | operator (left : Operand)
  | right (left : Operand) (op : Operator)
  | connective
  deriving DecidableEq, Repr

structure Builder where
  stage : Stage
  done : Option Expr
  pending : Option Connective
  deriving DecidableEq, Repr

namespace Builder

def start : Builder := ⟨.left, none, none⟩

structure Step where
  outcome : Except SyntaxFault (Option Expr)
  next : Builder
  deriving DecidableEq

def refuse (b : Builder) (expected : Expected) (found : Token) : Step :=
  ⟨.error (.unexpected expected found), {b with stage := .connective}⟩

-- A pending connective is used up even if nothing was built.
def close (b : Builder) (c : Comparison) : Builder :=
  ⟨.connective, some (Expr.extend (b.done.bind fun e => b.pending.map fun k => (e, k)) c), none⟩

def feed (b : Builder) (t : Token) : Step :=
  match b.stage with
  | .left =>
    match t with
    | .name text => ⟨.ok none, {b with stage := .operator (.named text)}⟩
    | .literal raw => ⟨.ok none, {b with stage := .operator (.literal raw)}⟩
    | other => b.refuse .operand other
  | .operator left =>
    match t with
    | .operator op => ⟨.ok none, {b with stage := .right left op}⟩
    | other => b.refuse .operator other
  | .right left op =>
    match t with
    | .name text => ⟨.ok none, b.close ⟨left, op, .named text⟩⟩
    | .literal raw => ⟨.ok none, b.close ⟨left, op, .literal raw⟩⟩
    | other => b.refuse .operand other
  | .connective =>
    match t with
    | .connective k => ⟨.ok none, {b with stage := .left, pending := some k}⟩
    | .stop =>
      match b.done with
      | some e => ⟨.ok (some e), {b with done := none}⟩
      | none => ⟨.error .empty, b⟩
    | other => b.refuse .connective other

def run (stuck : SyntaxFault) (b : Builder) : List Token → Except SyntaxFault Expr
  | [] => .error stuck
  | t :: rest =>
    match (b.feed t).outcome with
    | .error fault => .error fault
    | .ok (some e) => .ok e
    | .ok none => run stuck (b.feed t).next rest

end Builder

-- A token that spoils the marker is met before any fault of the text behind it.
def parse (source : Text) : Except SyntaxFault Expr :=
  let (all, stuck) := tokens source
  Builder.start.run ((stuck.map (·.inSource source)).getD .empty) all

end PkgInfo.Marker
