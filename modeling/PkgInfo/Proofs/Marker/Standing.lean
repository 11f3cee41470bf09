import PkgInfo.Marker.Basic
import PkgInfo.Proofs.Marker.Scan

/-! What a marker comes to once it is said what each name stands for. A context over a table of built-in
values is one way to say it, and nothing else of the two is looked at. -/
namespace PkgInfo.Marker

def Operand.under (stands : Text → Option Text) : Operand → Except EvaluationFault Text
  | named name =>
    match stands name with
    | some value => .ok value
    | none => .error (.unknownVariable name)
  | literal raw => .error (.noVariable raw)

def Comparison.under (stands : Text → Option Text) (c : Comparison) : Except EvaluationFault Bool :=
  match c.left.value?, c.right.value? with
  | some _, some _ => .error (.twoLiterals c)
  | some left, none => (c.right.under stands).map fun right => c.op.apply left right
  | none, some right => (c.left.under stands).map fun left => c.op.apply left right
  | none, none => .error (.noLiteral c)

def Expr.under (stands : Text → Option Text) : Expr → Except EvaluationFault Bool
  | compare c => c.under stands
  | join k left right =>
    match left.under stands, k with
    | .error fault, _ => .error fault
    | .ok false, .and => .ok false
    | .ok true, .or => .ok true
    | .ok _, _ => right.under stands

def outcome (stands : Text → Option Text) (source : Text) : Except Fault Bool :=
  match parse source with
  | .error cause => .error (.malformed cause)
  | .ok expr => (expr.under stands).mapError .undecided

theorem evaluateUnder (e : Environment) (context : Option Context) (expr : Expr) :
    expr.evaluate e context = expr.under (resolve? e context) := by
  induction expr with
  | compare c => rfl
  | join k left right ihLeft ihRight =>
    cases first : left.under (resolve? e context) with
    | error fault => simp only [Expr.evaluate, Expr.under, ihLeft, first]
    | ok holds =>
      cases holds <;> cases k <;> simp only [Expr.evaluate, Expr.under, ihLeft, ihRight, first]

theorem interpretUnder (e : Environment) (context : Option Context) (source : Text) :
    interpret e context source = outcome (resolve? e context) source := by
  unfold interpret outcome
  cases parse source with
  | error cause => rfl
  | ok expr =>
    simp only [evaluateUnder]
    cases expr.under (resolve? e context) <;> rfl

def Expr.variables (expr : Expr) : List Text := expr.comparisons.flatMap Comparison.variables

variable {f g : Text → Option Text}

theorem operandAgree {o : Operand} (agree : ∀ name ∈ o.variables, f name = g name) :
    o.under f = o.under g := by
  cases o with
  | named name => simp only [Operand.under, agree name List.mem_cons_self]
  | literal raw => rfl

theorem comparisonAgree {c : Comparison} (agree : ∀ name ∈ c.variables, f name = g name) :
    c.under f = c.under g := by
  have left : c.left.under f = c.left.under g :=
    operandAgree fun name member => agree name (List.mem_append_left _ member)
  have right : c.right.under f = c.right.under g :=
    operandAgree fun name member => agree name (List.mem_append_right _ member)
  simp only [Comparison.under, left, right]

theorem exprAgree {expr : Expr} (agree : ∀ name ∈ expr.variables, f name = g name) :
    expr.under f = expr.under g := by
  induction expr with
  | compare c =>
    simp only [Expr.variables, Expr.comparisons, List.flatMap_singleton] at agree
    exact comparisonAgree agree
  | join k left right ihLeft ihRight =>
    simp only [Expr.variables, Expr.comparisons, List.flatMap_append, List.mem_append] at agree
    have first := ihLeft fun name member => agree name (.inl member)
    have second := ihRight fun name member => agree name (.inr member)
    simp only [Expr.under, first, second]

end PkgInfo.Marker
