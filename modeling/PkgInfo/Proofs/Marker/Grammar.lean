import PkgInfo.Marker.Builder
import PkgInfo.Proofs.Marker.Lexing

/-! The written form of markers. A marker is a chain of comparisons with connectives between them and
its end behind them; everything before a connective is its left side. Exactly the chains are read. The
first token that leaves the form is refused, and a text that has no next token is refused for that only
where all tokens before keep to the form. -/
namespace PkgInfo.Marker

def Operand.token : Operand → Token
  | named name => .name name
  | literal raw => .literal raw

def Comparison.tokens (c : Comparison) : List Token :=
  [c.left.token, .operator c.op, c.right.token]

def Expr.comparisons : Expr → List Comparison
  | compare c => [c]
  | join _ left right => left.comparisons ++ right.comparisons

structure Chain where
  first : Comparison
  later : List (Connective × Comparison)
  deriving DecidableEq, Repr

namespace Chain

def link (l : Connective × Comparison) : List Token := .connective l.1 :: l.2.tokens

def body (c : Chain) : List Token := c.first.tokens ++ c.later.flatMap link

def tokens (c : Chain) : List Token := c.body ++ [.stop]

def expr (c : Chain) : Expr :=
  c.later.foldl (fun left l => .join l.1 left (.compare l.2)) (.compare c.first)

theorem stopInBody (c : Chain) : .stop ∉ c.body := by
  obtain ⟨⟨l, op, r⟩, later⟩ := c
  simp only [body, Comparison.tokens, List.mem_append, List.mem_flatMap, link]
  rintro (inside | ⟨⟨k, ⟨l', op', r'⟩⟩, _, inside⟩)
  · cases l <;> cases r <;> simp [Operand.token] at inside
  · cases l' <;> cases r' <;> simp [Operand.token] at inside

end Chain

theorem tokenInjective {left right : Operand} (same : left.token = right.token) : left = right := by
  cases left <;> cases right <;> simp_all [Operand.token]

theorem comparisonTokens {left right : Comparison} {rest rest' : List Token}
    (same : left.tokens ++ rest = right.tokens ++ rest') : left = right ∧ rest = rest' := by
  obtain ⟨l, op, r⟩ := left
  obtain ⟨l', op', r'⟩ := right
  simp only [Comparison.tokens, List.cons_append, List.nil_append, List.cons.injEq,
    Token.operator.injEq] at same
  obtain ⟨lefts, ops, rights, rests⟩ := same
  rw [tokenInjective lefts, ops, tokenInjective rights]
  exact ⟨rfl, rests⟩

theorem linksInjective {left right : List (Connective × Comparison)}
    (same : left.flatMap Chain.link ++ [.stop] = right.flatMap Chain.link ++ [.stop]) :
    left = right := by
  induction left generalizing right with
  | nil => cases right <;> simp [Chain.link] at same ⊢
  | cons l rest ih =>
    cases right with
    | nil => simp [Chain.link] at same
    | cons l' rest' =>
      obtain ⟨k, c⟩ := l
      obtain ⟨k', c'⟩ := l'
      simp only [List.flatMap_cons, Chain.link, List.cons_append, List.append_assoc,
        List.cons.injEq, Token.connective.injEq] at same
      obtain ⟨rfl, same⟩ := same
      obtain ⟨rfl, tails⟩ := comparisonTokens same
      rw [ih tails]

theorem tokensInjective {left right : Chain} (same : left.tokens = right.tokens) : left = right := by
  obtain ⟨first, later⟩ := left
  obtain ⟨first', later'⟩ := right
  simp only [Chain.tokens, Chain.body, List.append_assoc] at same
  obtain ⟨rfl, tails⟩ := comparisonTokens same
  rw [linksInjective tails]

def Expected.admits : Expected → Token → Bool
  | operand, .name _ | operand, .literal _ => true
  | operator, .operator _ => true
  | connective, .connective _ | connective, .stop => true
  | _, _ => false

def Expected.inPlace (place : Nat) : Expected :=
  match place % 4 with
  | 1 => operator
  | 3 => connective
  | _ => operand

def Opening (ts : List Token) : Prop := ∃ c : Chain, ts <+: c.tokens

theorem openingShorter {short long : List Token} (within : short <+: long) (opening : Opening long) :
    Opening short := by
  obtain ⟨c, before⟩ := opening
  exact ⟨c, within.trans before⟩

theorem operandAdmitted (o : Operand) : Expected.operand.admits o.token = true := by
  cases o <;> rfl

theorem inPlaceLater (place : Nat) : Expected.inPlace (place + 4) = Expected.inPlace place := by
  simp [Expected.inPlace]

theorem linksInPlace {later : List (Connective × Comparison)} {i : Nat} {t : Token}
    (found : (later.flatMap Chain.link ++ [.stop])[i]? = some t) :
    (Expected.inPlace (i + 3)).admits t = true := by
  induction later generalizing i with
  | nil =>
    cases i with
    | zero => cases found; rfl
    | succ i => simp at found
  | cons l rest ih =>
    match i with
    | 0 => cases found; rfl
    | 1 => cases found; exact operandAdmitted _
    | 2 => cases found; rfl
    | 3 => cases found; exact operandAdmitted _
    | i + 4 =>
      rw [Nat.add_right_comm, inPlaceLater]
      exact ih found

theorem tokenInPlace {c : Chain} {i : Nat} {t : Token} (found : c.tokens[i]? = some t) :
    (Expected.inPlace i).admits t = true := by
  obtain ⟨first, later⟩ := c
  simp only [Chain.tokens, Chain.body, List.append_assoc] at found
  match i with
  | 0 => cases found; exact operandAdmitted _
  | 1 => cases found; rfl
  | 2 => cases found; exact operandAdmitted _
  | i + 3 => exact linksInPlace found

theorem openingAdmits {ts : List Token} {t : Token} (opening : Opening (ts ++ [t])) :
    (Expected.inPlace ts.length).admits t = true := by
  obtain ⟨c, rest, same⟩ := opening
  refine tokenInPlace (c := c) ?_
  rw [← same]
  simp

abbrev Lead := Option (Chain × Connective)

namespace Lead

def tokens : Lead → List Token
  | none => []
  | some (c, k) => c.body ++ [.connective k]

def chain (next : Comparison) : Lead → Chain
  | none => ⟨next, []⟩
  | some (c, k) => {c with later := c.later ++ [(k, next)]}

def collecting (lead : Lead) (stage : Stage) : Builder :=
  ⟨stage, lead.map fun l => l.1.expr, lead.map fun l => l.2⟩

theorem bodyChain (lead : Lead) (next : Comparison) :
    (lead.chain next).body = lead.tokens ++ next.tokens := by
  cases lead with
  | none => simp [chain, tokens, Chain.body]
  | some l => simp [chain, tokens, Chain.body, Chain.link]

theorem closed (lead : Lead) (stage : Stage) (next : Comparison) :
    (lead.collecting stage).close next = ⟨.connective, some (lead.chain next).expr, none⟩ := by
  cases lead with
  | none => rfl
  | some l => simp [collecting, Builder.close, chain, Chain.expr, Expr.extend]

end Lead

-- The builder that has taken in an opening which is no whole chain yet.
inductive Reading : List Token → Builder → Prop where
  | left (lead : Lead) : Reading lead.tokens (lead.collecting .left)
  | operator (lead : Lead) (l : Operand) :
      Reading (lead.tokens ++ [l.token]) (lead.collecting (.operator l))
  | right (lead : Lead) (l : Operand) (op : Operator) :
      Reading (lead.tokens ++ [l.token, .operator op]) (lead.collecting (.right l op))
  | connective (c : Chain) : Reading c.body ⟨.connective, some c.expr, none⟩

theorem leadUnfinished (lead : Lead) (next : Comparison) {started : List Token}
    (within : started <+: next.tokens) : ∃ c : Chain, lead.tokens ++ started <+: c.body := by
  refine ⟨lead.chain next, ?_⟩
  rw [Lead.bodyChain]
  exact (List.prefix_append_right_inj _).2 within

theorem readingUnfinished {ts : List Token} {b : Builder} (reads : Reading ts b) :
    ∃ c : Chain, ts <+: c.body := by
  have blank : Operand := .named []
  cases reads with
  | left lead =>
    rw [← List.append_nil lead.tokens]
    exact leadUnfinished lead ⟨blank, .equal, blank⟩ (List.nil_prefix)
  | operator lead l =>
    exact leadUnfinished lead ⟨l, .equal, blank⟩ (List.prefix_append [l.token] _)
  | right lead l op =>
    exact leadUnfinished lead ⟨l, op, blank⟩ (List.prefix_append [l.token, .operator op] _)
  | connective c => exact ⟨c, List.prefix_refl _⟩

theorem readingOpening {ts : List Token} {b : Builder} (reads : Reading ts b) : Opening ts := by
  obtain ⟨c, within⟩ := readingUnfinished reads
  exact ⟨c, within.trans (List.prefix_append _ _)⟩

theorem readingNoStop {ts : List Token} {b : Builder} (reads : Reading ts b) : .stop ∉ ts := by
  obtain ⟨c, within⟩ := readingUnfinished reads
  exact fun inside => c.stopInBody (within.subset inside)

theorem linksLength (later : List (Connective × Comparison)) :
    (later.flatMap Chain.link).length = 4 * later.length := by
  induction later with
  | nil => rfl
  | cons l rest ih =>
    simp only [List.flatMap_cons, List.length_append, ih, Chain.link, Comparison.tokens,
      List.length_cons, List.length_nil]
    omega

theorem bodyPlace (c : Chain) : c.body.length % 4 = 3 := by
  simp only [Chain.body, List.length_append, linksLength, Comparison.tokens, List.length_cons,
    List.length_nil]
  omega

theorem leadPlace (lead : Lead) : lead.tokens.length % 4 = 0 := by
  cases lead with
  | none => rfl
  | some l =>
    have body := bodyPlace l.1
    simp only [Lead.tokens, List.length_append, List.length_singleton]
    omega

def Stage.expects : Stage → Expected
  | left | right _ _ => .operand
  | operator _ => .operator
  | connective => .connective

theorem readingExpects {ts : List Token} {b : Builder} (reads : Reading ts b) :
    Expected.inPlace ts.length = b.stage.expects := by
  cases reads with
  | left lead => simp [Expected.inPlace, leadPlace, Lead.collecting, Stage.expects]
  | operator lead l =>
    simp [Expected.inPlace, Nat.add_mod, leadPlace, Lead.collecting, Stage.expects]
  | right lead l op =>
    simp [Expected.inPlace, Nat.add_mod, leadPlace, Lead.collecting, Stage.expects]
  | connective c => simp [Expected.inPlace, bodyPlace, Stage.expects]

inductive Fed (ts : List Token) (t : Token) : Builder.Step → Prop where
  | on {b : Builder} (reads : Reading (ts ++ [t]) b) : Fed ts t ⟨.ok none, b⟩
  | ends {c : Chain} {b : Builder} (whole : c.tokens = ts ++ [t]) : Fed ts t ⟨.ok (some c.expr), b⟩
  | refused {b : Builder} (misplaced : (Expected.inPlace ts.length).admits t = false) :
      Fed ts t ⟨.error (.unexpected (.inPlace ts.length) t), b⟩

theorem fedRefused {ts : List Token} {b : Builder} (reads : Reading ts b) {t : Token}
    (misplaced : b.stage.expects.admits t = false) : Fed ts t (b.refuse b.stage.expects t) := by
  rw [← readingExpects reads] at misplaced ⊢
  exact .refused misplaced

theorem fedRight (lead : Lead) (l : Operand) (op : Operator) (r : Operand) :
    Fed (lead.tokens ++ [l.token, .operator op]) r.token
      ⟨.ok none, (lead.collecting (.right l op)).close ⟨l, op, r⟩⟩ := by
  have reads := Reading.connective (lead.chain ⟨l, op, r⟩)
  rw [Lead.bodyChain] at reads
  rw [Lead.closed]
  refine .on ?_
  rw [List.append_assoc]
  exact reads

theorem fed {ts : List Token} {b : Builder} (reads : Reading ts b) (t : Token) :
    Fed ts t (b.feed t) := by
  have refused := fedRefused reads (t := t)
  cases reads with
  | left lead =>
    cases t with
    | name text => exact .on (.operator lead (.named text))
    | literal raw => exact .on (.operator lead (.literal raw))
    | operator _ | connective _ | stop => exact refused rfl
  | operator lead l =>
    cases t with
    | operator op =>
      refine .on ?_
      rw [List.append_assoc]
      exact .right lead l op
    | name _ | literal _ | connective _ | stop => exact refused rfl
  | right lead l op =>
    cases t with
    | name text => exact fedRight lead l op (.named text)
    | literal raw => exact fedRight lead l op (.literal raw)
    | operator _ | connective _ | stop => exact refused rfl
  | connective c =>
    cases t with
    | connective k => exact .on (.left (some (c, k)))
    | stop => exact .ends rfl
    | name _ | literal _ | operator _ => exact refused rfl

inductive Misplaced : List Token → SyntaxFault → Prop where
  | first {before rest : List Token} {t : Token} (opening : Opening before)
      (breaks : ¬ Opening (before ++ [t])) :
      Misplaced (before ++ t :: rest) (.unexpected (.inPlace before.length) t)

inductive Built (stuck : SyntaxFault) (ts : List Token) : Except SyntaxFault Expr → Prop where
  | whole {c : Chain} (rest : List Token) (form : ts = c.tokens ++ rest) : Built stuck ts (.ok c.expr)
  | misplaced {fault : SyntaxFault} (refused : Misplaced ts fault) : Built stuck ts (.error fault)
  | short (opening : Opening ts) (unfinished : .stop ∉ ts) : Built stuck ts (.error stuck)

theorem built {before : List Token} {b : Builder} (reads : Reading before b) (stuck : SyntaxFault)
    (ts : List Token) : Built stuck (before ++ ts) (b.run stuck ts) := by
  induction ts generalizing before b with
  | nil =>
    rw [List.append_nil]
    exact .short (readingOpening reads) (readingNoStop reads)
  | cons t rest ih =>
    have step := fed reads t
    unfold Builder.run
    generalize b.feed t = s at step
    cases step with
    | on next =>
      have onward := ih next
      rw [List.append_assoc] at onward
      exact onward
    | ends whole =>
      refine .whole rest ?_
      rw [whole, List.append_assoc]
      rfl
    | refused misplaced =>
      refine .misplaced (.first (readingOpening reads) fun opening => ?_)
      rw [openingAdmits opening] at misplaced
      contradiction

theorem endedWhole {ts rest : List Token} {stuck : Option Stuck} {c : Chain} (ended : Ended ts stuck)
    (form : ts = c.tokens ++ rest) : ts = c.tokens ∧ stuck = none := by
  cases ended with
  | whole before fresh =>
    rcases List.eq_nil_or_concat rest with rfl | ⟨inner, last, rfl⟩
    · exact ⟨form.trans (List.append_nil _), rfl⟩
    · rw [List.concat_eq_append, ← List.append_assoc] at form
      have split : before = c.tokens ++ inner := (List.append_inj' form rfl).1
      simp [split, Chain.tokens] at fresh
  | stuck fresh => simp [form, Chain.tokens] at fresh

theorem endedShort {ts : List Token} {stuck : Option Stuck} (ended : Ended ts stuck)
    (unfinished : .stop ∉ ts) : ∃ s, stuck = some s := by
  cases ended with
  | whole before fresh => simp at unfinished
  | @stuck _ s fresh => exact ⟨s, rfl⟩

inductive Parsing (source : Text) : Except SyntaxFault Expr → Prop where
  | chain {c : Chain} (lexed : tokenize source = .ok c.tokens) : Parsing source (.ok c.expr)
  | misplaced {fault : SyntaxFault} (refused : Misplaced (tokens source).1 fault) :
      Parsing source (.error fault)
  | stuck {fault : SyntaxFault} (opening : Opening (tokens source).1)
      (lexed : tokenize source = .error fault) : Parsing source (.error fault)

theorem parsing (source : Text) : Parsing source (parse source) := by
  have ended := lexedEnded (lexed source)
  have building : Built (((tokens source).2.map (·.inSource source)).getD .empty) (tokens source).1
      (parse source) := built (.left none) _ _
  generalize parse source = outcome at building ⊢
  cases building with
  | whole rest form =>
    obtain ⟨whole, free⟩ := endedWhole ended form
    exact .chain (tokenizeOk.2 (Prod.ext whole free))
  | misplaced refused => exact .misplaced refused
  | short opening unfinished =>
    obtain ⟨s, stuck⟩ := endedShort ended unfinished
    rw [stuck]
    exact .stuck opening (tokenizeError.2 ⟨_, s, Prod.ext rfl stuck, rfl⟩)

theorem chainOpening {source : Text} {c : Chain} (lexed : tokenize source = .ok c.tokens) :
    Opening (tokens source).1 := by
  rw [tokenizeOk.1 lexed]
  exact ⟨c, List.prefix_refl _⟩

theorem upToPrefix (before : List Token) (t : Token) (rest : List Token) :
    before ++ [t] <+: before ++ t :: rest :=
  (List.prefix_append_right_inj _).2 (List.prefix_append [t] rest)

theorem misplacedBreaks {ts : List Token} {fault : SyntaxFault} (refused : Misplaced ts fault) :
    ¬ Opening ts := by
  cases refused with
  | first opening breaks => exact fun whole => breaks (openingShorter (upToPrefix _ _ _) whole)

theorem breaksFirst {before before' rest rest' : List Token} {t t' : Token}
    (same : before ++ t :: rest = before' ++ t' :: rest') (breaks : ¬ Opening (before ++ [t]))
    (opening : Opening before') : before'.length ≤ before.length := by
  refine Nat.le_of_not_lt fun longer => breaks (openingShorter ?_ opening)
  have upTo : before ++ [t] <+: before' ++ t' :: rest' := same ▸ upToPrefix before t rest
  refine List.prefix_of_prefix_length_le upTo (List.prefix_append _ _) ?_
  rw [List.length_append, List.length_singleton]
  exact longer

theorem misplacedUnique {ts : List Token} {left right : SyntaxFault} (one : Misplaced ts left)
    (other : Misplaced ts right) : left = right := by
  generalize same : ts = ts' at other
  cases one with
  | @first before rest t opening breaks =>
    cases other with
    | @first before' rest' t' opening' breaks' =>
      have lengths := Nat.le_antisymm (breaksFirst same.symm breaks' opening)
        (breaksFirst same breaks opening')
      obtain ⟨rfl, others⟩ := List.append_inj same lengths
      rw [(List.cons.inj others).1]

theorem misplacedNamed {ts : List Token} {fault : SyntaxFault} (refused : Misplaced ts fault) :
    fault ≠ .empty := by
  cases refused with
  | first opening breaks => nofun

theorem parsingUnique {source : Text} {left right : Except SyntaxFault Expr}
    (one : Parsing source left) (other : Parsing source right) : left = right := by
  cases one with
  | chain lexed =>
    cases other with
    | chain lexed' =>
      rw [lexed] at lexed'
      rw [tokensInjective (Except.ok.inj lexed')]
    | misplaced refused => exact absurd (chainOpening lexed) (misplacedBreaks refused)
    | stuck _ lexed' => rw [lexed] at lexed'; contradiction
  | misplaced refused =>
    cases other with
    | chain lexed => exact absurd (chainOpening lexed) (misplacedBreaks refused)
    | misplaced refused' => rw [misplacedUnique refused refused']
    | stuck opening _ => exact absurd opening (misplacedBreaks refused)
  | stuck opening lexed =>
    cases other with
    | chain lexed' => rw [lexed] at lexed'; contradiction
    | misplaced refused => exact absurd opening (misplacedBreaks refused)
    | stuck _ lexed' => rw [lexed] at lexed'; rw [Except.error.inj lexed']

theorem parsingNamed {source : Text} (reading : Parsing source (.error .empty)) : False := by
  cases reading with
  | misplaced refused => exact misplacedNamed refused rfl
  | stuck _ lexed =>
    obtain ⟨_, _, _, same⟩ := tokenizeError.1 lexed
    contradiction

/-- A text reads as the chain that it is tokenized to, with the expression that groups the chain from
the left; else it is refused for the first token that leaves the form, and for what keeps it from being
tokenized only where no token before does. A text is never refused for being empty. -/
theorem parseExactly (source : Text) (outcome : Except SyntaxFault Expr) :
    (parse source = outcome ↔ Parsing source outcome) ∧ parse source ≠ .error .empty := by
  have here := parsing source
  refine ⟨⟨fun same => same ▸ here, parsingUnique here⟩, fun empty => ?_⟩
  rw [empty] at here
  exact parsingNamed here

example : (parse "a == 'x' or b == 'y' and c == 'z'".toList).map Expr.grouped =
    .ok "((a == 'x' or b == 'y') and c == 'z')".toList := by decide +kernel

end PkgInfo.Marker
