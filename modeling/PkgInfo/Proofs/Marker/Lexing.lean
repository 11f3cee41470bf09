import PkgInfo.Marker.Lexer

/-! What the tokens of a text are like: the end comes last or not at all, and then there is a place
where no token starts. -/
namespace PkgInfo.Marker

inductive Lexed : Text → List Token → Option Stuck → Prop where
  | stuck {text : Text} {fault : LexFault} (found : (cut text).outcome = .error fault) :
      Lexed text [] (some ⟨fault, (cut text).rest⟩)
  | stop {text : Text} (found : (cut text).outcome = .ok .stop) : Lexed text [.stop] none
  | next {text : Text} {t : Token} {others : List Token} {stuck : Option Stuck}
      (found : (cut text).outcome = .ok t) (more : t ≠ .stop)
      (onward : Lexed (cut text).rest others stuck) : Lexed text (t :: others) stuck

theorem lexed (text : Text) : Lexed text (tokens text).1 (tokens text).2 := by
  fun_induction tokens text with
  | case1 text fault found => exact .stuck found
  | case2 text found => exact .stop found
  | case3 text t found more others stuck same ih =>
    rw [same] at ih
    exact .next found more ih

theorem tokenizeOk {source : Text} {ts : List Token} :
    tokenize source = .ok ts ↔ tokens source = (ts, none) := by
  unfold tokenize
  split
  · next all same => simp [same]
  · next all s same => simp [same]

theorem tokenizeError {source : Text} {fault : SyntaxFault} :
    tokenize source = .error fault ↔
      ∃ ts s, tokens source = (ts, some s) ∧ s.inSource source = fault := by
  unfold tokenize
  split
  · next all same => simp [same]
  · next all s same => simp [same, and_assoc]

inductive Ended : List Token → Option Stuck → Prop where
  | whole (before : List Token) (fresh : .stop ∉ before) : Ended (before ++ [.stop]) none
  | stuck {ts : List Token} {s : Stuck} (fresh : .stop ∉ ts) : Ended ts (some s)

theorem lexedEnded {text : Text} {ts : List Token} {stuck : Option Stuck}
    (lexed : Lexed text ts stuck) : Ended ts stuck := by
  induction lexed with
  | stuck found => exact .stuck nofun
  | stop found => exact .whole [] nofun
  | @next text t others stuck found more onward ih =>
    cases ih with
    | whole before fresh =>
      refine .whole (t :: before) ?_
      simpa using ⟨Ne.symm more, fresh⟩
    | stuck fresh => exact .stuck (by simpa using ⟨Ne.symm more, fresh⟩)

theorem quotedAround {quote : Char} (mark : isQuote quote = true) (inner : Text) :
    isQuoted (quote :: inner ++ [quote]) = true := by
  cases inner with
  | nil => simp [isQuoted, mark]
  | cons c rest =>
    have last : (c :: (rest ++ [quote])).getLast? = some quote :=
      List.getLast?_concat (l := c :: rest)
    simp [isQuoted, mark, last]

section
open Text
variable {text rest : Text} {t : Token}

inductive Lexeme : Token → Text → Text → Prop where
  | connective (k : Connective) {text after : Text} (cut : splitWord text = (k.spelling, after)) :
      Lexeme (.connective k) text after
  | inside {text after : Text} (cut : splitWord text = ("in".toList, after)) :
      Lexeme (.operator .inside) text after
  | outside {text after : Text} (cut : splitWord text = ("not".toList, after))
      (follows : (trimStart after).takeWhile isNamePart = "in".toList) :
      Lexeme (.operator .outside) text ((trimStart after).dropWhile isNamePart)
  | name {text word after : Text} (start : text.head?.any isNameStart = true)
      (cut : splitWord text = (word, after))
      (plain : word ∉ ["and".toList, "or".toList, "in".toList, "not".toList]) :
      Lexeme (.name word) text after
  | literal {quote : Char} {inner after : Text} (mark : isQuote quote = true) (free : quote ∉ inner) :
      Lexeme (.literal (quote :: inner ++ [quote])) (quote :: inner ++ quote :: after) after
  | sign {op : Operator} {after : Text} (word : op ≠ .inside ∧ op ≠ .outside) :
      Lexeme (.operator op) (op.spelling ++ after) after

theorem wordTaken (start : text.head?.any isNameStart = true)
    (found : cutWord text = ⟨.ok t, rest⟩) : Lexeme t text rest := by
  unfold cutWord at found
  cases word : splitWord text with | mk name after =>
  simp only [word] at found
  split at found
  · next same => subst same; cases found; exact .connective .and word
  · next noAnd =>
    split at found
    · next same => subst same; cases found; exact .connective .or word
    · next noOr =>
      split at found
      · next same => subst same; cases found; exact .inside word
      · next noIn =>
        split at found
        · next same =>
          subst same
          split at found
          · next follows => cases found; exact .outside word follows
          · cases found
        · next noNot =>
          cases found
          refine .name start word ?_
          simp only [List.mem_cons, List.not_mem_nil, or_false, not_or]
          exact ⟨noAnd, noOr, noIn, noNot⟩

theorem literalTaken {quote : Char} {behind : Text} (mark : isQuote quote = true)
    (found : cutLiteral quote behind = ⟨.ok t, rest⟩) : Lexeme t (quote :: behind) rest := by
  unfold cutLiteral at found
  split at found
  · next inner after within =>
    cases found
    obtain ⟨rfl, free⟩ := splitOnceSome within
    exact .literal mark free
  · cases found

theorem signTaken {c : Char} {behind : Text} (found : Marker.cutOperator c behind = ⟨.ok t, rest⟩) :
    Lexeme t (c :: behind) rest := by
  unfold Marker.cutOperator at found
  split at found <;> cases found <;> refine .sign ?_ <;> exact ⟨nofun, nofun⟩

theorem cutTaken (found : (cut text).outcome = .ok t) :
    t = .stop ∧ trimStart text = [] ∨ Lexeme t (trimStart text) (cut text).rest := by
  have whole : cut text = ⟨.ok t, (cut text).rest⟩ := by rw [← found]
  generalize (cut text).rest = rest at whole
  unfold cut at whole
  split at whole
  · next nothing => cases whole; exact .inl ⟨rfl, nothing⟩
  · next c behind starts =>
    rw [starts]
    refine .inr ?_
    split at whole
    · next start => exact wordTaken start whole
    · split at whole
      · next mark => exact literalTaken mark whole
      · split at whole
        · cases whole
        · exact signTaken whole

end

theorem cutQuoted {text raw : Text} (found : (cut text).outcome = .ok (.literal raw)) :
    isQuoted raw = true := by
  rcases cutTaken found with ⟨ends, -⟩ | taken
  · contradiction
  · generalize Text.trimStart text = source at taken
    cases taken with
    | literal mark free => exact quotedAround mark _

theorem lexedQuoted {text : Text} {ts : List Token} {stuck : Option Stuck}
    (lexed : Lexed text ts stuck) {raw : Text} (member : .literal raw ∈ ts) :
    isQuoted raw = true := by
  induction lexed with
  | stuck found => contradiction
  | stop found => simp at member
  | next found more onward ih =>
    rcases List.mem_cons.1 member with rfl | later
    · exact cutQuoted found
    · exact ih later

end PkgInfo.Marker
