import PkgInfo.Main.Toml.Format
import PkgInfo.Proofs.Marker.Spelling
import PkgInfo.Proofs.Marker.Standing

/-! Variables of markers in the settings. Every name that a marker can hold is one that the settings accept,
and where they have it the marker takes their value for it. -/
namespace PkgInfo

namespace Marker

def Operand.filled (value : Text) : Operand → Text
  | named _ => value
  | literal raw => (raw.drop 1).dropLast

theorem comparisonFilled {e : Environment} {context : Option Context} {c : Comparison}
    (quoted : c.Quoted) {name value : Text} (names : c.variables = [name])
    (held : resolve? e context name = some value) :
    c.evaluate e context = .ok (c.op.apply (c.left.filled value) (c.right.filled value)) := by
  obtain ⟨left, op, right⟩ := c
  obtain ⟨leftQuoted, rightQuoted⟩ := quoted
  unfold Comparison.variables at names
  cases left with
  | named l =>
    cases right with
    | named r => simp [Operand.variables] at names
    | literal r =>
      obtain rfl : l = name := by simpa [Operand.variables] using names
      simp only [Comparison.evaluate, quotedValue rightQuoted]
      simp only [Operand.value?, Operand.resolve, held]
      rfl
  | literal l =>
    cases right with
    | named r =>
      obtain rfl : r = name := by simpa [Operand.variables] using names
      simp only [Comparison.evaluate, quotedValue leftQuoted]
      simp only [Operand.value?, Operand.resolve, held]
      rfl
    | literal r => simp [Operand.variables] at names

theorem comparisonNames {c : Comparison} {name : Text} : .name name ∈ c.tokens ↔ name ∈ c.variables := by
  obtain ⟨left, op, right⟩ := c
  cases left <;> cases right <;>
    simp [Comparison.tokens, Operand.token, Comparison.variables, Operand.variables]

theorem chainNames {chain : Chain} {name : Text} :
    .name name ∈ chain.tokens ↔ name ∈ chain.expr.variables := by
  simp only [Expr.variables, Chain.exprComparisons, List.flatMap_cons, List.flatMap_map,
    Chain.tokens, Chain.body, Chain.link, List.mem_append, List.mem_flatMap, List.mem_cons,
    List.not_mem_nil, or_false, reduceCtorEq, false_or, comparisonNames]

theorem faultUnresolved {e : Environment} {context : Option Context} {expr : Expr} {name : Text}
    (undecided : expr.evaluate e context = .error (.unknownVariable name)) :
    resolve? e context name = none := by
  induction expr with
  | compare c =>
    have operand {o : Operand} {f : Text → Bool}
        (fault : (o.resolve e context).map f = .error (.unknownVariable name)) :
        resolve? e context name = none := by
      cases o with
      | named other =>
        obtain ⟨unresolved, same⟩ := namedFault.1 fault
        rwa [EvaluationFault.unknownVariable.inj same]
      | literal raw => cases mappedError.1 fault
    simp only [Expr.evaluate, Comparison.evaluate] at undecided
    split at undecided
    · cases undecided
    · exact operand undecided
    · exact operand undecided
    · cases undecided
  | join k left right ihLeft ihRight =>
    simp only [Expr.evaluate] at undecided
    split at undecided
    · next fault first => exact ihLeft (first.trans undecided)
    · cases undecided
    · cases undecided
    · exact ihRight undecided

end Marker

namespace Settings
open Text
open Marker (DottedName Environment Operand Token Chain parse resolve? tokenize)

theorem namePartAccepted {c : Char} (part : isNamePart c = true) :
    (isAlphanumeric c || c == '_' || c == '.') = true := by
  simp only [isNamePart, Char.isAlphanum, Bool.or_eq_true] at part
  simp only [isAlphanumeric, Bool.or_eq_true]
  rcases part with (letter | digit) | line
  · have ascii : c.toNat < 0x80 := by
      rw [letterIff, upperIff, lowerIff] at letter
      omega
    exact .inl (.inl (.inl (by rwa [isAlphabetic, if_pos ascii])))
  · have ascii : c.toNat < 0x80 := Nat.lt_of_le_of_lt (Char.isDigit_iff_toNat.1 digit).2 (by decide)
    exact .inl (.inl (.inr (by rwa [isNumber, if_pos ascii])))
  · exact .inl (.inr line)

theorem dottedAccepted {name : Text} (dotted : DottedName name) : isVariableName name = true := by
  have starts := Marker.nameStarts dotted
  have whole := joinedPieces '.' name
  have each : ∀ c ∈ joined ['.'] (pieces '.' name), (isAlphanumeric c || c == '_' || c == '.') = true :=
    joinedEach (List.forall_mem_singleton.2 (by simp)) fun word member c inside =>
      namePartAccepted ((dotted word member).parts c inside)
  rw [whole] at each
  have filled : name ≠ [] := by rintro rfl; contradiction
  have first : name.head? ≠ some '.' := by
    intro dot
    rw [dot] at starts
    contradiction
  have last : name.getLast? ≠ some '.' := by
    intro dot
    obtain ⟨front, rfl⟩ := List.getLast?_eq_some_iff.1 dot
    have empty : [] ∈ pieces '.' (front ++ ['.']) := by simp [piecesAppend, pieces]
    exact absurd (dotted [] empty).starts (by decide)
  simp only [isVariableName, Bool.and_eq_true, decide_eq_true_eq, List.all_eq_true]
  exact ⟨⟨⟨filled, first⟩, last⟩, each⟩

/-- Settings that have a name of a marker, beside others that are accepted, are accepted. The name resolves
to the value they have for it, in every comparison that looks it up and so in the marker. -/
theorem variableConfigured [SettingsFormat] {source : Text} {ts : List Token} (tokenized : tokenize source = .ok ts)
    {name : Text} (member : .name name ∈ ts) {s : Settings} {value : Text}
    (held : s.context.find? name = some value)
    (others : ∀ key ∈ s.context.keys, key ≠ name → isVariableName key = true) :
    s.checked = .ok s ∧ (∀ document, SettingsFormat.read document = .ok s → ofText document = .ok s) ∧
      ∀ e : Environment, (Operand.named name).resolve e (some s.context) = .ok value ∧
        ∀ expr, parse source = .ok expr → name ∈ expr.variables ∧
          (∀ c ∈ expr.comparisons, c.variables = [name] → c.evaluate e (some s.context) =
            .ok (c.op.apply (c.left.filled value) (c.right.filled value))) ∧
          (expr.evaluate e (some s.context) = expr.under fun other =>
            if other = name then some value else resolve? e (some s.context) other) ∧
          expr.evaluate e (some s.context) ≠ .error (.unknownVariable name) := by
  have lexing := Marker.lexed source
  rw [Marker.tokenizeOk.1 tokenized] at lexing
  have dotted : DottedName name := (Marker.lexedReadable lexing _ member).1
  have accepted : s.checked = .ok s := checkedAccepted.2 fun key inside => by
    by_cases same : key = name
    · rw [same]
      exact dottedAccepted dotted
    · exact others key inside same
  refine ⟨accepted, fun document read => (checkedRead read).trans accepted, fun e => ?_⟩
  have resolved : resolve? e (some s.context) name = some value := by
    rw [resolve?, Option.bind_some, held, Option.some_or]
  refine ⟨by rw [Operand.resolve, resolved], fun expr parsed => ?_⟩
  have reading := Marker.parsing source
  rw [parsed] at reading
  cases reading with
  | @chain chain written =>
    obtain rfl : ts = chain.tokens := Except.ok.inj (tokenized.symm.trans written)
    refine ⟨Marker.chainNames.1 member, fun c inside names => ?_, ?_, fun undecided => ?_⟩
    · exact Marker.comparisonFilled (Chain.comparisonQuoted written inside) names resolved
    · rw [Marker.evaluateUnder]
      refine congrArg chain.expr.under (funext fun other => ?_)
      split
      · next same => rw [same, resolved]
      · rfl
    · rw [Marker.faultUnresolved undecided] at resolved
      contradiction

def configuredDocument : Text := "[variables]\n\"é.1\" = \"z\"\n\"_x.y2\" = \"bab\"".toList

def configured : Settings :=
  ⟨false, Table.ofList [("_x.y2".toList, "bab".toList), ("é.1".toList, "z".toList)]⟩

attribute [local instance] toml

theorem variableConfiguredBeside :
    let e := Environment.detect "macos".toList "x86_64".toList
    let looked : Marker.Comparison := ⟨.literal "'a'".toList, .inside, .named "_x.y2".toList⟩
    let expr := Marker.Expr.join .and
      (.compare ⟨.named "os.name".toList, .notEqual, .literal "'nt'".toList⟩) (.compare looked)
    parse "os.name!='nt' and'a'in _x.y2".toList = .ok expr ∧
      ofText configuredDocument = .ok configured ∧
      (Operand.named "_x.y2".toList).resolve e (some configured.context) = .ok "bab".toList ∧
      looked.evaluate e (some configured.context) = .ok true ∧
      expr.evaluate e (some configured.context) = .ok true := by
  intro e looked expr
  have tokenized : tokenize "os.name!='nt' and'a'in _x.y2".toList =
      .ok [.name "os.name".toList, .operator .notEqual, .literal "'nt'".toList, .connective .and,
        .literal "'a'".toList, .operator .inside, .name "_x.y2".toList, .stop] := by decide +kernel
  have parsed : parse "os.name!='nt' and'a'in _x.y2".toList = .ok expr := by decide +kernel
  have held : configured.context.find? "_x.y2".toList = some "bab".toList := by decide +kernel
  obtain ⟨_, read, evaluation⟩ := variableConfigured tokenized (by decide) held (by decide +kernel)
  obtain ⟨resolved, marker⟩ := evaluation e
  obtain ⟨_, compared, under, _⟩ := marker expr parsed
  refine ⟨parsed, read configuredDocument (by decide +kernel), resolved, compared looked (by decide) (by decide), ?_⟩
  rw [under]
  decide +kernel

end Settings
end PkgInfo
