import PkgInfo.Proofs.Marker.Grammar
import PkgInfo.Proofs.Marker.Names
import PkgInfo.Proofs.Text.Letters

/-! Markers written flat, without parentheses. An expression that groups to the left, with names and
literals that can be read, is read back from that form as it was, and reading gives no others. -/
namespace PkgInfo.Marker
open Text

def Token.spelling : Token → Text
  | .name text => text
  | .literal raw => raw
  | .operator op => op.spelling
  | .connective k => k.spelling
  | .stop => []

def Expr.spelling : Expr → Text
  | compare c => c.spelling
  | join k left right => left.spelling ++ ' ' :: k.spelling ++ ' ' :: right.spelling

def reserved : List Text := ["and".toList, "or".toList, "in".toList, "not".toList]

def Token.Readable : Token → Prop
  | .name text => DottedName text ∧ text ∉ reserved
  | .literal raw => ∃ quote inner, raw = quote :: inner ++ [quote] ∧ isQuote quote = true ∧ quote ∉ inner
  | _ => True

def Comparison.Readable (c : Comparison) : Prop := c.left.token.Readable ∧ c.right.token.Readable

inductive Expr.Flat : Expr → Prop where
  | compare {c : Comparison} (readable : c.Readable) : Flat (.compare c)
  | join {k : Connective} {left : Expr} {c : Comparison} (before : Flat left) (readable : c.Readable) :
      Flat (.join k left (.compare c))

def spaced (ts : List Token) : Text := ts.flatMap fun t => ' ' :: t.spelling

def Apart (rest : Text) : Prop := ∀ c ∈ rest.head?, c = ' '

theorem apartCases {rest : Text} (apart : Apart rest) : rest = [] ∨ ∃ more, rest = ' ' :: more := by
  cases rest with
  | nil => exact .inl rfl
  | cons c more => exact .inr ⟨more, by rw [apart c rfl]⟩

theorem apartEndsName {rest : Text} (apart : Apart rest) : EndsName rest := by
  intro c first
  rw [apart c first]
  decide

theorem spacedApart (ts : List Token) {behind : Text} (apart : Apart behind) :
    Apart (spaced ts ++ behind) := by
  cases ts with
  | nil => exact apart
  | cons t rest => exact fun c first => (Option.some.inj first).symm

theorem startNotBlank {c : Char} (start : isNameStart c = true) : isBlank c = false := by
  rcases Bool.or_eq_true_iff.1 start with letter | score
  · exact letterSolid letter
  · rw [eq_of_beq score]
    decide

theorem cutSpace (text : Text) : cut (' ' :: text) = cut text := rfl

theorem cutOperation (op : Operator) {rest : Text} (apart : Apart rest) :
    cut (op.spelling ++ rest) = ⟨.ok (.operator op), rest⟩ := by
  rcases apartCases apart with rfl | ⟨more, rfl⟩ <;> cases op <;> rfl

theorem cutConnective (k : Connective) {rest : Text} (apart : Apart rest) :
    cut (k.spelling ++ rest) = ⟨.ok (.connective k), rest⟩ := by
  rcases apartCases apart with rfl | ⟨more, rfl⟩ <;> cases k <;> rfl

theorem cutName {text rest : Text} (name : DottedName text) (plain : text ∉ reserved)
    (apart : Apart rest) : cut (text ++ rest) = ⟨.ok (.name text), rest⟩ := by
  obtain ⟨first, others, pieces⟩ := List.exists_cons_of_ne_nil (piecesNonempty '.' text)
  have starts : text.head?.any isNameStart = true := nameStarts name
  cases text with
  | nil => contradiction
  | cons c more =>
    have start : isNameStart c = true := starts
    have split : splitWord (c :: (more ++ rest)) = (c :: more, rest) :=
      splitName name (apartEndsName apart)
    simp only [reserved, List.mem_cons, List.not_mem_nil, or_false, not_or] at plain
    simp only [cut, trimStart, List.cons_append, List.dropWhile_cons, startNotBlank start,
      Bool.false_eq_true, if_false, start, if_true, cutWord, split, plain]

theorem cutLiteralSpelled {quote : Char} {inner rest : Text} (mark : isQuote quote = true)
    (free : quote ∉ inner) :
    cut (quote :: inner ++ [quote] ++ rest) = ⟨.ok (.literal (quote :: inner ++ [quote])), rest⟩ := by
  have within : splitOnce quote (inner ++ quote :: rest) = some (inner, rest) :=
    splitOnceAt free rest
  have kinds : isBlank quote = false ∧ isNameStart quote = false := by
    simp only [isQuote, Bool.or_eq_true, beq_iff_eq] at mark
    rcases mark with rfl | rfl <;> decide
  simp only [cut, trimStart, List.cons_append, List.append_assoc, List.nil_append,
    List.dropWhile_cons, kinds, Bool.false_eq_true, if_false, mark, if_true, cutLiteral, within]

theorem cutSpelled {t : Token} (readable : t.Readable) (more : t ≠ .stop) {rest : Text}
    (apart : Apart rest) : cut (t.spelling ++ rest) = ⟨.ok t, rest⟩ := by
  cases t with
  | name text => exact cutName readable.1 readable.2 apart
  | literal raw =>
    obtain ⟨quote, inner, rfl, mark, free⟩ := readable
    exact cutLiteralSpelled mark free
  | operator op => exact cutOperation op apart
  | connective k => exact cutConnective k apart
  | stop => contradiction

theorem lexedUnique {text : Text} {ts ts' : List Token} {stuck stuck' : Option Stuck}
    (one : Lexed text ts stuck) (other : Lexed text ts' stuck') : ts = ts' ∧ stuck = stuck' := by
  induction one generalizing ts' stuck' with
  | stuck found =>
    cases other with
    | stuck found' => rw [Except.error.inj (found.symm.trans found')]; exact ⟨rfl, rfl⟩
    | stop found' | next found' more onward => rw [found] at found'; contradiction
  | stop found =>
    cases other with
    | stop found' => exact ⟨rfl, rfl⟩
    | stuck found' => rw [found] at found'; contradiction
    | next found' more onward => exact absurd (Except.ok.inj (found'.symm.trans found)) more
  | next found more onward ih =>
    cases other with
    | stuck found' => rw [found] at found'; contradiction
    | stop found' => exact absurd (Except.ok.inj (found.symm.trans found')) more
    | next found' more' onward' =>
      obtain ⟨rfl, rfl⟩ := ih onward'
      rw [Except.ok.inj (found.symm.trans found')]
      exact ⟨rfl, rfl⟩

theorem lexedSpaced {ts : List Token} (readable : ∀ t ∈ ts, t.Readable) (fresh : .stop ∉ ts)
    {behind : Text} (apart : Apart behind) (ends : trimStart behind = []) :
    Lexed (spaced ts ++ behind) (ts ++ [.stop]) none := by
  induction ts with
  | nil => exact .stop (by simp [spaced, cut, ends])
  | cons t rest ih =>
    obtain ⟨head, tail⟩ := List.forall_mem_cons.1 readable
    obtain ⟨more, later⟩ := not_or.1 (mt List.mem_cons.2 fresh)
    have whole : spaced (t :: rest) ++ behind = ' ' :: (t.spelling ++ (spaced rest ++ behind)) := by
      simp [spaced]
    have first : cut (spaced (t :: rest) ++ behind) = ⟨.ok t, spaced rest ++ behind⟩ := by
      rw [whole, cutSpace, cutSpelled head (Ne.symm more) (spacedApart rest apart)]
    refine .next (by rw [first]) (Ne.symm more) ?_
    rw [first]
    exact ih tail later

theorem tokensSpaced {ts : List Token} (readable : ∀ t ∈ ts, t.Readable) (fresh : .stop ∉ ts)
    {behind : Text} (apart : Apart behind) (ends : trimStart behind = []) :
    tokens (spaced ts ++ behind) = (ts ++ [.stop], none) := by
  obtain ⟨same, free⟩ := lexedUnique (lexed _) (lexedSpaced readable fresh apart ends)
  exact Prod.ext same free

theorem tokensSpace (text : Text) : tokens (' ' :: text) = tokens text := by
  rw [tokens, tokens.eq_def text]
  rfl

theorem spacedAppend (left right : List Token) : spaced (left ++ right) = spaced left ++ spaced right :=
  List.flatMap_append

theorem spacedComparison (c : Comparison) : spaced c.tokens = ' ' :: c.spelling := by
  have operand (o : Operand) : o.token.spelling = o.spelling := by cases o <;> rfl
  obtain ⟨left, op, right⟩ := c
  simp only [spaced, Comparison.tokens, Comparison.spelling, List.flatMap_cons, List.flatMap_nil,
    operand, List.append_nil]
  simp [Token.spelling]

theorem spacedLink (k : Connective) (c : Comparison) :
    spaced (Chain.link (k, c)) = ' ' :: k.spelling ++ ' ' :: c.spelling := by
  rw [Chain.link, ← List.singleton_append, spacedAppend, spacedComparison]
  simp [spaced, Token.spelling]

theorem spelledFrom (later : List (Connective × Comparison)) (left : Expr) :
    ' ' :: (later.foldl (fun left l => .join l.1 left (.compare l.2)) left).spelling =
      ' ' :: left.spelling ++ spaced (later.flatMap Chain.link) := by
  induction later generalizing left with
  | nil => simp [spaced]
  | cons l rest ih =>
    rw [List.foldl_cons, ih, List.flatMap_cons, spacedAppend, spacedLink]
    simp [Expr.spelling]

theorem chainSpelling (chain : Chain) : ' ' :: chain.expr.spelling = spaced chain.body := by
  rw [Chain.expr, spelledFrom, Chain.body, spacedAppend, spacedComparison]
  rfl

theorem parseSpelling {chain : Chain} (readable : ∀ t ∈ chain.body, t.Readable) :
    parse chain.expr.spelling = .ok chain.expr := by
  have lexed : tokens chain.expr.spelling = (chain.tokens, none) := by
    rw [← tokensSpace, chainSpelling, ← List.append_nil (spaced chain.body)]
    exact tokensSpaced readable chain.stopInBody nofun rfl
  exact parsingUnique (parsing _) (.chain (tokenizeOk.2 lexed))

theorem comparisonReadable {c : Comparison} : c.Readable ↔ ∀ t ∈ c.tokens, t.Readable := by
  simp [Comparison.Readable, Comparison.tokens, Token.Readable]

theorem chainOfFlat {expr : Expr} (flat : expr.Flat) :
    ∃ chain : Chain, chain.expr = expr ∧ ∀ t ∈ chain.body, t.Readable := by
  induction flat with
  | @compare c readable =>
    refine ⟨⟨c, []⟩, rfl, ?_⟩
    simpa [Chain.body] using comparisonReadable.1 readable
  | @join k left c before readable ih =>
    obtain ⟨chain, rfl, each⟩ := ih
    refine ⟨Lead.chain c (some (chain, k)), by simp [Lead.chain, Chain.expr], ?_⟩
    rw [Lead.bodyChain, Lead.tokens]
    simp only [List.forall_mem_append, List.forall_mem_singleton]
    exact ⟨⟨each, trivial⟩, comparisonReadable.1 readable⟩

theorem flatFrom {later : List (Connective × Comparison)} (each : ∀ l ∈ later, l.2.Readable)
    {left : Expr} (flat : left.Flat) :
    (later.foldl (fun left l => .join l.1 left (.compare l.2)) left).Flat := by
  induction later generalizing left with
  | nil => exact flat
  | cons l rest ih =>
    obtain ⟨head, tail⟩ := List.forall_mem_cons.1 each
    exact ih tail (.join flat head)

theorem flatOfChain {chain : Chain} (readable : ∀ t ∈ chain.body, t.Readable) :
    chain.expr.Flat := by
  obtain ⟨first, later⟩ := List.forall_mem_append.1 readable
  refine flatFrom (fun l member => comparisonReadable.2 fun t inside => ?_)
    (.compare (comparisonReadable.2 first))
  exact later t (List.mem_flatMap.2 ⟨l, member, List.mem_cons_of_mem _ inside⟩)

theorem cutReadable {text : Text} {t : Token} (found : (cut text).outcome = .ok t) : t.Readable := by
  rcases cutTaken found with ⟨rfl, -⟩ | taken
  · trivial
  · generalize trimStart text = source, (cut text).rest = rest at taken
    cases taken with
    | name start word plain =>
      have dotted := splitDottedName start
      rw [word] at dotted
      exact ⟨dotted, plain⟩
    | @literal quote inner after mark free => exact ⟨quote, inner, rfl, mark, free⟩
    | connective | inside | outside | sign => trivial

theorem lexedReadable {text : Text} {ts : List Token} {stuck : Option Stuck}
    (lexed : Lexed text ts stuck) : ∀ t ∈ ts, t.Readable := by
  induction lexed with
  | stuck found => nofun
  | stop found => exact List.forall_mem_singleton.2 trivial
  | next found more onward ih => exact List.forall_mem_cons.2 ⟨cutReadable found, ih⟩

theorem parsedFlat {source : Text} {expr : Expr} (parsed : parse source = .ok expr) : expr.Flat := by
  have reading := parsing source
  rw [parsed] at reading
  cases reading with
  | @chain chain tokenized =>
    have lexing := lexed source
    rw [tokenizeOk.1 tokenized] at lexing
    exact flatOfChain (List.forall_mem_append.1 (lexedReadable lexing)).1

/-- An expression is read back from its flat form exactly where it groups to the left and all its
names and literals can be written, and these are the expressions that any text is read as. -/
theorem spellingReadBack (expr : Expr) :
    (expr.Flat ↔ parse expr.spelling = .ok expr) ∧
      (expr.Flat ↔ ∃ source, parse source = .ok expr) := by
  have back (flat : expr.Flat) : parse expr.spelling = .ok expr := by
    obtain ⟨chain, rfl, readable⟩ := chainOfFlat flat
    exact parseSpelling readable
  exact ⟨⟨back, parsedFlat⟩, fun flat => ⟨_, back flat⟩, fun ⟨_, parsed⟩ => parsedFlat parsed⟩

end PkgInfo.Marker
