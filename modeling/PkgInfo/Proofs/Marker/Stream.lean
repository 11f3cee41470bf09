import Mathlib.Data.List.Forall2
import Mathlib.Data.List.Induction
import PkgInfo.Proofs.Marker.Grammar

/-! A builder that is fed on and on, past tokens it refuses and past trees it hands out. A comparison is
complete when its operand, operator and operand are fed in a row to a builder that waits for the left
one; none of these is lost or put in another place. A connective that is joined with stands right before
its comparison, so one that an error left behind is never joined with. -/
namespace PkgInfo.Marker

namespace Builder

inductive Move (b : Builder) (t : Token) : Step → Prop where
  | left {l : Operand} (stage : b.stage = .left) (token : t = l.token) :
      Move b t ⟨.ok none, {b with stage := .operator l}⟩
  | operator {l : Operand} {op : Operator} (stage : b.stage = .operator l)
      (token : t = .operator op) : Move b t ⟨.ok none, {b with stage := .right l op}⟩
  | right {l : Operand} {op : Operator} {r : Operand} (stage : b.stage = .right l op)
      (token : t = r.token) : Move b t ⟨.ok none, b.close ⟨l, op, r⟩⟩
  | connective {k : Connective} (stage : b.stage = .connective) (token : t = .connective k) :
      Move b t ⟨.ok none, {b with stage := .left, pending := some k}⟩
  | ends {e : Expr} (stage : b.stage = .connective) (done : b.done = some e) :
      Move b t ⟨.ok (some e), {b with done := none}⟩
  | refused {fault : SyntaxFault}
      (misplaced : ∀ l op (r : Operand), b.stage = .right l op → t ≠ r.token) :
      Move b t ⟨.error fault, {b with stage := .connective}⟩

theorem move (b : Builder) (t : Token) : Move b t (b.feed t) := by
  obtain ⟨stage, done, pending⟩ := b
  cases stage with
  | left =>
    cases t with
    | name text => exact @Move.left _ _ (.named text) rfl rfl
    | literal raw => exact @Move.left _ _ (.literal raw) rfl rfl
    | operator _ | connective _ | stop => exact .refused nofun
  | operator l =>
    cases t with
    | operator op => exact .operator rfl rfl
    | name _ | literal _ | connective _ | stop => exact .refused nofun
  | right l op =>
    cases t with
    | name text => exact @Move.right _ _ l op (.named text) rfl rfl
    | literal raw => exact @Move.right _ _ l op (.literal raw) rfl rfl
    | operator _ | connective _ | stop =>
      exact .refused fun _ _ r _ same => by cases r <;> cases same
  | connective =>
    cases t with
    | connective k => exact .connective rfl rfl
    | stop =>
      cases done with
      | some e => exact .ends rfl rfl
      | none => exact .refused nofun
    | name _ | literal _ | operator _ => exact .refused nofun

theorem feedOperand {b : Builder} (waits : b.stage = .left) (l : Operand) :
    (b.feed l.token).next.stage = .operator l := by
  simp only [feed, waits]
  cases l <;> rfl

theorem feedOperator {b : Builder} {l : Operand} (waits : b.stage = .operator l) (op : Operator) :
    (b.feed (.operator op)).next.stage = .right l op := by
  simp only [feed, waits]

end Builder

structure Session where
  returned : List Expr
  builder : Builder
  deriving DecidableEq

namespace Session

def start : Session := ⟨[], .start⟩

def feed (s : Session) (t : Token) : Session :=
  let step := s.builder.feed t
  ⟨s.returned ++ (match step.outcome with | .ok (some e) => [e] | _ => []), step.next⟩

def after (ts : List Token) : Session := ts.foldl feed start

theorem afterConcat (ts : List Token) (t : Token) : after (ts ++ [t]) = (after ts).feed t := by
  rw [after, List.foldl_concat]
  rfl

end Session

def stageAfter (ts : List Token) : Stage := (Session.after ts).builder.stage

theorem stageConcat (ts : List Token) (t : Token) :
    stageAfter (ts ++ [t]) = ((Session.after ts).builder.feed t).next.stage := by
  rw [stageAfter, Session.afterConcat]
  rfl

structure Completion where
  before : List Token
  comparison : Comparison
  deriving DecidableEq, Repr

structure Completion.Of (ts : List Token) (p : Completion) : Prop where
  waits : stageAfter p.before = .left
  fed : p.before ++ p.comparison.tokens <+: ts

def Token.connective? : Token → Option Connective
  | .connective k => some k
  | _ => none

def lastConnective (ts : List Token) : Option Connective :=
  (ts.filterMap Token.connective?).getLast?

-- A tree over completed comparisons. Each but the first is the right side of a connective of its own.
inductive Grown : List Completion → Expr → Prop where
  | first (p : Completion) : Grown [p] (.compare p.comparison)
  | joined {group : List Completion} {e : Expr} {k : Connective} (p : Completion)
      (earlier : Grown group e) (last : lastConnective p.before = some k) :
      Grown (group ++ [p]) (.join k e (.compare p.comparison))

inductive Held : List Completion → Option Expr → Prop where
  | nothing : Held [] none
  | tree {group : List Completion} {e : Expr} (grown : Grown group e) : Held group (some e)

theorem grownComparisons {group : List Completion} {e : Expr} (grown : Grown group e) :
    e.comparisons = group.map Completion.comparison := by
  induction grown with
  | first p => rfl
  | joined p earlier last ih => simp [Expr.comparisons, ih]

theorem heldComparisons {group : List Completion} {done : Option Expr} (held : Held group done) :
    done.toList.flatMap Expr.comparisons = group.map Completion.comparison := by
  cases held with
  | nothing => rfl
  | tree grown => simp [grownComparisons grown]

theorem returnedComparisons {groups : List (List Completion)} {es : List Expr}
    (grown : List.Forall₂ Grown groups es) :
    es.flatMap Expr.comparisons = groups.flatten.map Completion.comparison := by
  induction grown with
  | nil => rfl
  | cons head tail ih => simp [grownComparisons head, ih]

theorem lastConcat (ts : List Token) (k : Connective) :
    lastConnective (ts ++ [.connective k]) = some k := by
  simp [lastConnective, Token.connective?]

inductive Led : List Token → Option Expr → Option Connective → Prop where
  | first {pending : Option Connective} : Led [] none pending
  | behind (front : List Token) (done : Option Expr) (k : Connective) :
      Led (front ++ [.connective k]) done (some k)

inductive Underway : List Token → Builder → Prop where
  | left {ts : List Token} {b : Builder} (stage : b.stage = .left) (led : Led ts b.done b.pending) :
      Underway ts b
  | operator {front : List Token} {l : Operand} {b : Builder} (stage : b.stage = .operator l)
      (waits : stageAfter front = .left) (led : Led front b.done b.pending) :
      Underway (front ++ [l.token]) b
  | right {front : List Token} {l : Operand} {op : Operator} {b : Builder}
      (stage : b.stage = .right l op) (waits : stageAfter front = .left)
      (led : Led front b.done b.pending) : Underway (front ++ [l.token, .operator op]) b
  | connective {ts : List Token} {b : Builder} (stage : b.stage = .connective) : Underway ts b

structure Tally (ts : List Token) (s : Session) (groups : List (List Completion))
    (current : List Completion) : Prop where
  complete : ∀ p, p ∈ groups.flatten ++ current ↔ Completion.Of ts p
  ordered : (groups.flatten ++ current).Pairwise fun p q => p.before.length < q.before.length
  returned : List.Forall₂ Grown groups s.returned
  held : Held current s.builder.done
  underway : Underway ts s.builder

theorem tallyStart : Tally [] .start [] [] where
  complete p := by
    constructor
    · nofun
    · intro completed
      have short := completed.fed.length_le
      simp [Comparison.tokens] at short
  ordered := .nil
  returned := .nil
  held := .nothing
  underway := .left rfl .first

-- The last of its tokens completes a comparison only if the builder wants the right operand.
theorem completionEnds {ts : List Token} {t : Token} {p : Completion} (waits : stageAfter p.before = .left)
    (fed : p.before ++ p.comparison.tokens = ts ++ [t]) :
    stageAfter ts = .right p.comparison.left p.comparison.op ∧ t = p.comparison.right.token := by
  have whole : p.before ++ [p.comparison.left.token] ++ [.operator p.comparison.op] ++
      [p.comparison.right.token] = ts ++ [t] := by
    rw [← fed]
    simp [Comparison.tokens]
  obtain ⟨rfl, last⟩ := List.append_inj' whole rfl
  have first : stageAfter (p.before ++ [p.comparison.left.token]) = .operator p.comparison.left :=
    (stageConcat _ _).trans (Builder.feedOperand waits _)
  have second := (stageConcat _ (.operator p.comparison.op)).trans (Builder.feedOperator first _)
  exact ⟨second, (List.cons.inj last).1.symm⟩

theorem completionUnique {p q : Completion}
    (same : p.before ++ p.comparison.tokens = q.before ++ q.comparison.tokens) : p = q := by
  obtain ⟨fronts, tokens⟩ := List.append_inj' same rfl
  have comparisons := (comparisonTokens (congrArg (· ++ []) tokens)).1
  cases p
  cases q
  cases fronts
  cases comparisons
  rfl

theorem completionConcat {ts : List Token} {t : Token} {p : Completion} :
    Completion.Of (ts ++ [t]) p ↔ Completion.Of ts p ∨
      stageAfter p.before = .left ∧ p.before ++ p.comparison.tokens = ts ++ [t] := by
  constructor
  · intro ⟨waits, fed⟩
    rcases List.prefix_concat_iff.1 fed with whole | earlier
    · exact .inr ⟨waits, whole⟩
    · exact .inl ⟨waits, earlier⟩
  · rintro (⟨waits, earlier⟩ | ⟨waits, whole⟩)
    · exact ⟨waits, earlier.trans (List.prefix_append _ _)⟩
    · exact ⟨waits, whole ▸ List.prefix_refl _⟩

theorem completionSame {ts : List Token} {t : Token} (misplaced : ∀ l op (r : Operand),
    stageAfter ts = .right l op → t ≠ r.token) (p : Completion) :
    Completion.Of (ts ++ [t]) p ↔ Completion.Of ts p := by
  rw [completionConcat]
  constructor
  · rintro (earlier | ⟨waits, whole⟩)
    · exact earlier
    · obtain ⟨stage, last⟩ := completionEnds waits whole
      exact absurd last (misplaced _ _ _ stage)
  · exact .inl

section
variable {ts : List Token} {t : Token} {groups : List (List Completion)} {current : List Completion}

theorem completesNothing {stage : Stage} (now : stageAfter ts = stage)
    (other : ∀ l op, stage ≠ .right l op) (l : Operand) (op : Operator) (r : Operand)
    (wants : stageAfter ts = .right l op) : t ≠ r.token :=
  absurd (now.symm.trans wants) (other l op)

theorem tallySame (tally : Tally ts (.after ts) groups current)
    (misplaced : ∀ l op (r : Operand), stageAfter ts = .right l op → t ≠ r.token)
    {s : Session} {groups' : List (List Completion)} {current' : List Completion}
    (same : groups'.flatten ++ current' = groups.flatten ++ current)
    (returned : List.Forall₂ Grown groups' s.returned) (held : Held current' s.builder.done)
    (underway : Underway (ts ++ [t]) s.builder) : Tally (ts ++ [t]) s groups' current' where
  complete p := by rw [same, tally.complete, completionSame misplaced]
  ordered := same ▸ tally.ordered
  returned := returned
  held := held
  underway := underway

theorem heldJoined {front : List Token} {b : Builder} (held : Held current b.done)
    (led : Led front b.done b.pending) (c : Comparison) :
    Held (current ++ [⟨front, c⟩]) (b.close c).done := by
  obtain ⟨stage, done, pending⟩ := b
  cases held with
  | nothing => exact .tree (.first ⟨front, c⟩)
  | tree grown =>
    cases led with
    | behind front _ k => exact .tree (.joined ⟨_, c⟩ grown (lastConcat front k))

theorem tallyRight {front : List Token} {c : Comparison} (waits : stageAfter front = .left)
    (whole : front ++ c.tokens = ts ++ [t]) (tally : Tally ts (.after ts) groups current)
    {s : Session} (returned : List.Forall₂ Grown groups s.returned)
    (held : Held (current ++ [⟨front, c⟩]) s.builder.done)
    (underway : Underway (ts ++ [t]) s.builder) :
    Tally (ts ++ [t]) s groups (current ++ [⟨front, c⟩]) where
  complete p := by
    rw [← List.append_assoc, List.mem_append, tally.complete, completionConcat, List.mem_singleton]
    constructor
    · rintro (earlier | rfl)
      · exact .inl earlier
      · exact .inr ⟨waits, whole⟩
    · rintro (earlier | ⟨_, last⟩)
      · exact .inl earlier
      · exact .inr (completionUnique (last.trans whole.symm))
  ordered := by
    rw [← List.append_assoc, List.pairwise_append]
    have size := congrArg List.length whole
    simp only [List.length_append, Comparison.tokens, List.length_cons, List.length_nil] at size
    constructor
    · exact tally.ordered
    · constructor
      · exact List.pairwise_singleton _ _
      · intro p member q last
        rw [List.mem_singleton.1 last]
        have within := ((tally.complete p).1 member).fed.length_le
        simp only [List.length_append, Comparison.tokens, List.length_cons, List.length_nil] at within
        simp only
        omega
  returned := returned
  held := held
  underway := underway

theorem tallyFed (tally : Tally ts (.after ts) groups current) (t : Token) :
    ∃ groups current, Tally (ts ++ [t]) (.after (ts ++ [t])) groups current := by
  have returned := tally.returned
  have held := tally.held
  have underway := tally.underway
  have moved := (Session.after ts).builder.move t
  have kept : List.Forall₂ Grown groups ((Session.after ts).returned ++ []) := by simpa using returned
  rw [Session.afterConcat, Session.feed]
  generalize (Session.after ts).builder.feed t = step at moved
  cases moved with
  | @left l stage token =>
    subst token
    cases underway with
    | left _ led =>
      exact ⟨_, _, tallySame tally (completesNothing stage (by simp)) rfl kept held
        (.operator rfl stage led)⟩
    | operator other | right other | connective other => cases stage.symm.trans other
  | @operator l op stage token =>
    subst token
    cases underway with
    | @operator front _ _ same waits led =>
      cases stage.symm.trans same
      have next : Underway (front ++ [l.token] ++ [.operator op])
          {(Session.after (front ++ [l.token])).builder with stage := .right l op} := by
        rw [List.append_assoc]
        exact .right rfl waits led
      exact ⟨_, _, tallySame tally (completesNothing stage (by simp)) rfl kept held next⟩
    | left other | right other | connective other => cases stage.symm.trans other
  | @right l op r stage token =>
    subst token
    cases underway with
    | right same waits led =>
      cases stage.symm.trans same
      exact ⟨_, _, tallyRight waits (by simp [Comparison.tokens]) tally kept
        (heldJoined held led ⟨l, op, r⟩) (.connective rfl)⟩
    | left other | operator other | connective other => cases stage.symm.trans other
  | @connective k stage token =>
    subst token
    exact ⟨_, _, tallySame tally (completesNothing stage (by simp)) rfl kept held
      (.left rfl (.behind ts _ k))⟩
  | @ends e stage done =>
    rw [done] at held
    cases held with
    | tree grown =>
      have more := List.rel_append returned (List.Forall₂.cons grown .nil)
      exact ⟨groups ++ [current], [], tallySame tally (completesNothing stage (by simp)) (by simp) more
        .nothing (.connective stage)⟩
  | refused misplaced => exact ⟨_, _, tallySame tally misplaced rfl kept held (.connective rfl)⟩

end

theorem tallied (ts : List Token) : ∃ groups current, Tally ts (.after ts) groups current := by
  induction ts using List.reverseRecOn with
  | nil => exact ⟨[], [], tallyStart⟩
  | append_singleton ts t ih =>
    obtain ⟨groups, current, tally⟩ := ih
    exact tallyFed tally t

theorem stageLeft {ts : List Token} (waits : stageAfter ts = .left) :
    ts = [] ∨ ∃ k, ts.getLast? = some (.connective k) := by
  obtain ⟨_, _, tally⟩ := tallied ts
  have underway := tally.underway
  generalize same : (Session.after ts).builder = b at underway
  have stage : b.stage = .left := same ▸ waits
  obtain ⟨_, done, pending⟩ := b
  cases underway with
  | left _ led =>
    cases led with
    | first => exact .inl rfl
    | behind front done k => exact .inr ⟨k, by simp⟩
  | operator other | right other | connective other => cases stage.symm.trans other

/-- Whatever tokens are fed, refused ones and ends among them: the comparisons that are complete, in
their order, are those of the trees handed out so far and then those of the tree still held. Each is the
right side of the connective fed last before it, save the first of a tree, and a connective that is
joined with is the very token before its comparison. -/
theorem streamKept (ts : List Token) :
    let s := Session.after ts
    ∃ (groups : List (List Completion)) (current : List Completion),
      (∀ p, p ∈ groups.flatten ++ current ↔ Completion.Of ts p) ∧
      (groups.flatten ++ current).Pairwise (fun p q => p.before.length < q.before.length) ∧
      s.returned.flatMap Expr.comparisons ++ s.builder.done.toList.flatMap Expr.comparisons =
        (groups.flatten ++ current).map Completion.comparison ∧
      List.Forall₂ Grown groups s.returned ∧ Held current s.builder.done ∧
      ∀ p, Completion.Of ts p → p.before = [] ∨ ∃ k, p.before.getLast? = some (.connective k) := by
  obtain ⟨groups, current, tally⟩ := tallied ts
  have comparisons : (Session.after ts).returned.flatMap Expr.comparisons ++
      (Session.after ts).builder.done.toList.flatMap Expr.comparisons =
        (groups.flatten ++ current).map Completion.comparison := by
    rw [returnedComparisons tally.returned, heldComparisons tally.held, List.map_append]
  exact ⟨groups, current, tally.complete, tally.ordered, comparisons, tally.returned, tally.held,
    fun _ completed => stageLeft completed.waits⟩

-- The connective that the second operator spoils is left behind, and the next one replaces it.
example :
    (Session.after
      [.name ['a'], .operator .equal, .name ['b'], .connective .and, .operator .less,
       .connective .or, .name ['c'], .operator .less, .name ['d'], .stop]).returned =
      [.join .or (.compare ⟨.named ['a'], .equal, .named ['b']⟩)
        (.compare ⟨.named ['c'], .less, .named ['d']⟩)] := by decide

end PkgInfo.Marker
