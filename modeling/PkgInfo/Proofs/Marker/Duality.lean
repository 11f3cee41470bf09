import PkgInfo.Proofs.Marker.Scan

/-! The dual of an expression has every comparison turned into its complement and the connectives swapped.
It looks at the same comparisons, has a truth value where the expression has one, and then the other. -/
namespace PkgInfo.Marker

def Operator.complement : Operator → Operator
  | equal => notEqual
  | notEqual => equal
  | greater => lessOrEqual
  | greaterOrEqual => less
  | less => greaterOrEqual
  | lessOrEqual => greater
  | inside => outside
  | outside => inside

theorem Operator.applyComplement (op : Operator) (left right : Text) :
    op.complement.apply left right = !op.apply left right := by
  cases op <;> simp only [complement, apply, decide_not, Bool.not_not, ne_eq]

def Connective.dual : Connective → Connective
  | and => or
  | or => and

def Comparison.complement (c : Comparison) : Comparison := {c with op := c.op.complement}

def Expr.dual : Expr → Expr
  | compare c => compare c.complement
  | join k left right => join k.dual left.dual right.dual

def EvaluationFault.dual : EvaluationFault → EvaluationFault
  | twoLiterals c => twoLiterals c.complement
  | noLiteral c => noLiteral c.complement
  | unknownVariable name => unknownVariable name
  | noVariable raw => noVariable raw

def opposite : Except EvaluationFault Bool → Except EvaluationFault Bool
  | .ok holds => .ok (!holds)
  | .error fault => .error fault.dual

def Expr.met (e : Environment) (context : Option Context) : Expr → List Comparison
  | compare c => [c]
  | join k left right =>
    left.met e context ++
      match left.evaluate e context with
      | .error _ => []
      | .ok held => if k.keeps held then [] else right.met e context

theorem dualKeeps (k : Connective) (held : Bool) : k.dual.keeps (!held) = k.keeps held := by
  cases k <;> simp [Connective.dual, Connective.keeps]

section
variable {e : Environment} {context : Option Context}

theorem oppositeOk {result : Except EvaluationFault Bool} {holds : Bool} :
    opposite result = .ok (!holds) ↔ result = .ok holds := by
  cases result <;> simp [opposite]

theorem oppositeError {result : Except EvaluationFault Bool} :
    (∃ fault, opposite result = .error fault) ↔ ∃ fault, result = .error fault := by
  cases result <;> simp [opposite]

theorem resolveDual {o : Operand} {fault : EvaluationFault}
    (failed : o.resolve e context = .error fault) : fault.dual = fault := by
  cases o with
  | named name =>
    simp only [Operand.resolve] at failed
    split at failed
    · contradiction
    · obtain rfl := Except.error.inj failed
      rfl
  | literal raw =>
    obtain rfl := Except.error.inj failed
    rfl

theorem resolveOpposite (o : Operand) (f : Text → Bool) :
    (o.resolve e context).map (fun value => !f value) = opposite ((o.resolve e context).map f) := by
  cases resolved : o.resolve e context with
  | error fault => simp only [Except.map, opposite, resolveDual resolved]
  | ok value => rfl

theorem complementEvaluate (c : Comparison) :
    c.complement.evaluate e context = opposite (c.evaluate e context) := by
  obtain ⟨left, op, right⟩ := c
  simp only [Comparison.complement, Comparison.evaluate, Operator.applyComplement, resolveOpposite]
  cases left.value? <;> cases right.value? <;> rfl

theorem evaluateJoin (k : Connective) (left right : Expr) :
    (Expr.join k left right).evaluate e context =
      match left.evaluate e context with
      | .error fault => .error fault
      | .ok held => if k.keeps held then .ok held else right.evaluate e context := by
  simp only [Expr.evaluate]
  cases left.evaluate e context with
  | error fault => rfl
  | ok held => cases held <;> cases k <;> rfl

theorem dualEvaluate (expr : Expr) :
    expr.dual.evaluate e context = opposite (expr.evaluate e context) := by
  induction expr with
  | compare c => exact complementEvaluate c
  | join k left right ihLeft ihRight =>
    rw [Expr.dual, evaluateJoin, evaluateJoin, ihLeft, ihRight]
    cases left.evaluate e context with
    | error fault => rfl
    | ok held =>
      simp only [opposite, dualKeeps]
      split
      · rfl
      · rfl

theorem dualMet (expr : Expr) :
    expr.dual.met e context = (expr.met e context).map Comparison.complement := by
  induction expr with
  | compare c => rfl
  | join k left right ihLeft ihRight =>
    rw [Expr.dual, Expr.met, Expr.met, dualEvaluate, ihLeft, ihRight, List.map_append]
    cases left.evaluate e context with
    | error fault => rfl
    | ok held =>
      simp only [opposite, dualKeeps]
      split
      · rfl
      · rfl

end

/-- The dual looks at the complements of the same comparisons, comes to the other truth value, and fails
exactly where the expression fails. -/
theorem dualNegates (e : Environment) (context : Option Context) (expr : Expr) :
    (∀ holds, expr.dual.evaluate e context = .ok (!holds) ↔ expr.evaluate e context = .ok holds) ∧
      ((∃ fault, expr.dual.evaluate e context = .error fault) ↔
        ∃ fault, expr.evaluate e context = .error fault) ∧
      expr.dual.evaluate e context = opposite (expr.evaluate e context) ∧
      expr.dual.met e context = (expr.met e context).map Comparison.complement := by
  have same : expr.dual.evaluate e context = opposite (expr.evaluate e context) := dualEvaluate expr
  refine ⟨fun holds => ?_, ?_, same, dualMet expr⟩
  · rw [same, oppositeOk]
  · rw [same, oppositeError]

end PkgInfo.Marker
