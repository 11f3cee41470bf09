import PkgInfo.Marker.Evaluation
import PkgInfo.Proofs.Marker.Grammar

/-! Evaluating a marker is one scan over its comparisons in the order they are written. The scan holds
a truth value; at `and` it keeps false and at `or` it keeps true without a look at the comparison behind,
so what is passed over can spoil nothing. Literals of a marker are quoted, which leaves three ways for a
comparison to have no truth value. -/
namespace PkgInfo.Marker

def Connective.keeps : Connective → Bool → Bool
  | and, held => !held
  | or, held => held

namespace Chain

def scanFrom (outcome : Comparison → Except EvaluationFault Bool) (held : Bool) :
    List (Connective × Comparison) → Except EvaluationFault Bool
  | [] => .ok held
  | (k, c) :: rest =>
    if k.keeps held then scanFrom outcome held rest
    else match outcome c with
      | .error fault => .error fault
      | .ok next => scanFrom outcome next rest

def scan (outcome : Comparison → Except EvaluationFault Bool) (chain : Chain) :
    Except EvaluationFault Bool :=
  match outcome chain.first with
  | .error fault => .error fault
  | .ok held => scanFrom outcome held chain.later

def takenFrom (outcome : Comparison → Except EvaluationFault Bool) (held : Bool) :
    List (Connective × Comparison) → List Comparison
  | [] => []
  | (k, c) :: rest =>
    if k.keeps held then takenFrom outcome held rest
    else match outcome c with
      | .error _ => [c]
      | .ok next => c :: takenFrom outcome next rest

def taken (outcome : Comparison → Except EvaluationFault Bool) (chain : Chain) : List Comparison :=
  match outcome chain.first with
  | .error _ => [chain.first]
  | .ok held => chain.first :: takenFrom outcome held chain.later

variable {outcome : Comparison → Except EvaluationFault Bool} {fault : EvaluationFault}

theorem scanFromFault {held : Bool} {later : List (Connective × Comparison)} :
    scanFrom outcome held later = .error fault ↔
      ∃ c ∈ takenFrom outcome held later, outcome c = .error fault := by
  induction later generalizing held with
  | nil => simp [scanFrom, takenFrom]
  | cons l rest ih =>
    obtain ⟨k, c⟩ := l
    cases kept : k.keeps held with
    | true => simp [scanFrom, takenFrom, kept, ih]
    | false =>
      cases result : outcome c with
      | error cause => simp [scanFrom, takenFrom, kept, result]
      | ok next => simp [scanFrom, takenFrom, kept, result, ih]

theorem scanFault {chain : Chain} :
    chain.scan outcome = .error fault ↔ ∃ c ∈ chain.taken outcome, outcome c = .error fault := by
  cases result : outcome chain.first with
  | error cause => simp [scan, taken, result]
  | ok held => simp [scan, taken, result, scanFromFault]

theorem foldEvaluate (e : Environment) (context : Option Context)
    (later : List (Connective × Comparison)) (left : Expr) :
    (later.foldl (fun left l => .join l.1 left (.compare l.2)) left).evaluate e context =
      match left.evaluate e context with
      | .error fault => .error fault
      | .ok held => scanFrom (Comparison.evaluate e context) held later := by
  induction later generalizing left with
  | nil => cases result : left.evaluate e context <;> simp [scanFrom, result]
  | cons l rest ih =>
    obtain ⟨k, c⟩ := l
    rw [List.foldl_cons, ih]
    cases result : left.evaluate e context with
    | error fault => simp [Expr.evaluate, result]
    | ok held =>
      cases held <;> cases k <;> simp [Expr.evaluate, result, scanFrom, Connective.keeps]

theorem evaluateExpr (e : Environment) (context : Option Context) (chain : Chain) :
    chain.expr.evaluate e context = chain.scan (Comparison.evaluate e context) :=
  foldEvaluate e context chain.later (.compare chain.first)

end Chain

def Operand.variables : Operand → List Text
  | named name => [name]
  | literal _ => []

def Comparison.variables (c : Comparison) : List Text := c.left.variables ++ c.right.variables

def Operand.Quoted : Operand → Prop
  | named _ => True
  | literal raw => isQuoted raw = true

def Comparison.Quoted (c : Comparison) : Prop := c.left.Quoted ∧ c.right.Quoted

theorem resolveNone {e : Environment} {context : Option Context} {name : Text} :
    resolve? e context name = none ↔
      (∀ table, context = some table → table.find? name = none) ∧ e.find? name = none := by
  cases context <;> simp [resolve?]

theorem quotedValue {raw : Text} (quoted : isQuoted raw = true) :
    (Operand.literal raw).value? = some (raw.drop 1).dropLast := if_pos quoted

section
variable {e : Environment} {context : Option Context}

theorem namedFault {name : Text} {f : Text → Bool} {fault : EvaluationFault} :
    ((Operand.named name).resolve e context).map f = .error fault ↔
      resolve? e context name = none ∧ fault = .unknownVariable name := by
  simp only [Operand.resolve]
  cases found : resolve? e context name with
  | none => simp [Except.map, eq_comm]
  | some value => simp [Except.map]

theorem comparisonFault {c : Comparison} (quoted : c.Quoted) {fault : EvaluationFault} :
    c.evaluate e context = .error fault ↔
      (c.variables = [] ∧ fault = .twoLiterals c) ∨
      (c.variables.length = 2 ∧ fault = .noLiteral c) ∨
      ∃ name, c.variables = [name] ∧ resolve? e context name = none ∧
        fault = .unknownVariable name := by
  obtain ⟨left, op, right⟩ := c
  obtain ⟨leftQuoted, rightQuoted⟩ := quoted
  unfold Comparison.variables
  cases left with
  | named l =>
    cases right with
    | named r =>
      have outcome : Comparison.evaluate e context ⟨.named l, op, .named r⟩ =
        .error (.noLiteral ⟨.named l, op, .named r⟩) := rfl
      simp [outcome, Operand.variables, eq_comm (a := fault)]
    | literal r =>
      simp only [Comparison.evaluate, quotedValue rightQuoted]
      simp [Operand.value?, namedFault, Operand.variables]
  | literal l =>
    cases right with
    | named r =>
      simp only [Comparison.evaluate, quotedValue leftQuoted]
      simp [Operand.value?, namedFault, Operand.variables]
    | literal r =>
      simp only [Comparison.evaluate, quotedValue leftQuoted, quotedValue rightQuoted]
      simp [Operand.variables, eq_comm (a := fault)]

theorem comparisonUndecided {c : Comparison} (quoted : c.Quoted) :
    (∃ fault, c.evaluate e context = .error fault) ↔
      c.variables = [] ∨ c.variables.length = 2 ∨
        ∃ name ∈ c.variables, resolve? e context name = none := by
  simp only [comparisonFault quoted]
  obtain ⟨left, op, right⟩ := c
  cases left <;> cases right <;> simp [Comparison.variables, Operand.variables]

end

theorem noVariables {c : Comparison} :
    c.variables = [] ↔ ∃ l r, c.left = .literal l ∧ c.right = .literal r := by
  obtain ⟨left, op, right⟩ := c
  cases left <;> cases right <;> simp [Comparison.variables, Operand.variables]

theorem twoVariables {c : Comparison} :
    c.variables.length = 2 ↔ ∃ l r, c.left = .named l ∧ c.right = .named r := by
  obtain ⟨left, op, right⟩ := c
  cases left <;> cases right <;> simp [Comparison.variables, Operand.variables]

namespace Chain

theorem foldComparisons (later : List (Connective × Comparison)) (left : Expr) :
    (later.foldl (fun left l => .join l.1 left (.compare l.2)) left).comparisons =
      left.comparisons ++ later.map Prod.snd := by
  induction later generalizing left with
  | nil => simp
  | cons l rest ih =>
    rw [List.foldl_cons, ih]
    simp [Expr.comparisons]

theorem exprComparisons (chain : Chain) :
    chain.expr.comparisons = chain.first :: chain.later.map Prod.snd :=
  foldComparisons chain.later (.compare chain.first)

theorem comparisonInside {chain : Chain} {c : Comparison} (member : c ∈ chain.expr.comparisons) :
    ∀ t ∈ c.tokens, t ∈ chain.tokens := by
  intro t inside
  rw [exprComparisons] at member
  simp only [tokens, body, List.mem_append, List.mem_flatMap]
  rcases List.mem_cons.1 member with rfl | later
  · exact .inl (.inl inside)
  · obtain ⟨l, there, rfl⟩ := List.mem_map.1 later
    exact .inl (.inr ⟨l, there, List.mem_cons_of_mem _ inside⟩)

theorem operandQuoted {ts : List Token} (quoted : ∀ raw, .literal raw ∈ ts → isQuoted raw = true)
    {o : Operand} (member : o.token ∈ ts) : o.Quoted := by
  cases o with
  | named name => trivial
  | literal raw => exact quoted raw member

theorem comparisonQuoted {source : Text} {chain : Chain} (lexed : tokenize source = .ok chain.tokens)
    {c : Comparison} (member : c ∈ chain.expr.comparisons) : c.Quoted := by
  have lexing := Marker.lexed source
  rw [tokenizeOk.1 lexed] at lexing
  have quoted : ∀ raw, .literal raw ∈ chain.tokens → isQuoted raw = true :=
    fun raw => lexedQuoted lexing
  have inside := comparisonInside member
  exact ⟨operandQuoted quoted (inside _ (by simp [Comparison.tokens])),
    operandQuoted quoted (inside _ (by simp [Comparison.tokens]))⟩

theorem takenFromInside {outcome : Comparison → Except EvaluationFault Bool} {held : Bool}
    {later : List (Connective × Comparison)} :
    ∀ c ∈ takenFrom outcome held later, c ∈ later.map Prod.snd := by
  induction later generalizing held with
  | nil => simp [takenFrom]
  | cons l rest ih =>
    obtain ⟨k, c⟩ := l
    intro d member
    simp only [takenFrom] at member
    split at member
    · exact List.mem_cons_of_mem _ (ih d member)
    · split at member
      · obtain rfl := List.mem_singleton.1 member
        exact List.mem_cons_self
      · rcases List.mem_cons.1 member with rfl | later
        · exact List.mem_cons_self
        · exact List.mem_cons_of_mem _ (ih d later)

theorem takenInside {outcome : Comparison → Except EvaluationFault Bool} {chain : Chain} :
    ∀ c ∈ chain.taken outcome, c ∈ chain.expr.comparisons := by
  intro c member
  rw [exprComparisons]
  simp only [taken] at member
  split at member
  · obtain rfl := List.mem_singleton.1 member
    exact List.mem_cons_self
  · rcases List.mem_cons.1 member with rfl | later
    · exact List.mem_cons_self
    · exact List.mem_cons_of_mem _ (takenFromInside c later)

end Chain

/-- The comparisons of a marker are looked at from the left, each that is not passed over gives the
value held from there on, and the first without a truth value is the fault of the whole. -/
theorem markerScan {source : Text} {expr : Expr} (parsed : parse source = .ok expr) :
    ∃ chain : Chain, tokenize source = .ok chain.tokens ∧ expr = chain.expr ∧
      ∀ (e : Environment) (context : Option Context),
        expr.evaluate e context = chain.scan (Comparison.evaluate e context) ∧
        (∀ fault, expr.evaluate e context = .error fault ↔
          ∃ c ∈ chain.taken (Comparison.evaluate e context),
            c.evaluate e context = .error fault) ∧
        (∀ c ∈ expr.comparisons, (∃ fault, c.evaluate e context = .error fault) ↔
          (∃ l r, c.left = .literal l ∧ c.right = .literal r) ∨
          (∃ l r, c.left = .named l ∧ c.right = .named r) ∨
          ∃ name ∈ c.variables, (∀ table, context = some table → table.find? name = none) ∧
            e.find? name = none) ∧
        ∀ raw, expr.evaluate e context ≠ .error (.noVariable raw) := by
  have reading := parsing source
  rw [parsed] at reading
  cases reading with
  | @chain chain lexed =>
    refine ⟨chain, lexed, rfl, fun e context => ?_⟩
    have scanned := Chain.evaluateExpr e context chain
    have faults : ∀ fault, chain.expr.evaluate e context = .error fault ↔
        ∃ c ∈ chain.taken (Comparison.evaluate e context), c.evaluate e context = .error fault := by
      intro fault
      rw [scanned]
      exact Chain.scanFault
    refine ⟨scanned, faults, fun c member => ?_, fun raw spoilt => ?_⟩
    · have quoted := Chain.comparisonQuoted lexed member
      rw [comparisonUndecided quoted, noVariables, twoVariables]
      simp only [resolveNone]
    · obtain ⟨c, member, outcome⟩ := (faults _).1 spoilt
      have quoted := Chain.comparisonQuoted lexed (Chain.takenInside c member)
      rcases (comparisonFault quoted).1 outcome with
        ⟨_, same⟩ | ⟨_, same⟩ | ⟨_, _, _, same⟩ <;> contradiction

def unknownName : Comparison := ⟨.named "bogus".toList, .equal, .literal "'x'".toList⟩

def passedOver : Chain where
  first := ⟨.named "os.name".toList, .equal, .literal "'posix'".toList⟩
  later := [(.or, unknownName),
    (.and, ⟨.literal "'lin'".toList, .inside, .named "sys.platform".toList⟩)]

theorem passedOverScan :
    let e := Environment.detect "linux".toList "x86_64".toList
    parse "os.name == 'posix' or bogus == 'x' and 'lin' in sys.platform".toList =
        .ok passedOver.expr ∧
      passedOver.expr.evaluate e none = .ok true ∧
      ∃ fault, unknownName.evaluate e none = .error fault := by
  intro e
  have parsed : parse "os.name == 'posix' or bogus == 'x' and 'lin' in sys.platform".toList =
      .ok passedOver.expr := by decide +kernel
  obtain ⟨_, _, _, evaluation⟩ := markerScan parsed
  obtain ⟨_, _, undecided, _⟩ := evaluation e none
  refine ⟨parsed, by decide +kernel, (undecided unknownName (by decide)).2 (.inr (.inr ?_))⟩
  exact ⟨"bogus".toList, by decide, nofun, by decide⟩

end PkgInfo.Marker
