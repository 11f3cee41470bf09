import PkgInfo.Marker.Operator
import PkgInfo.Outcome
import PkgInfo.Text.Dotted
import PkgInfo.Text.Quoted
import PkgInfo.Text.Word

/-! Tokens of a marker and how they are cut off the front of a text. Cutting leaves the text that is
still to be read: behind the token, or at the character where no token starts, so reading can go on
after a fault. -/
namespace PkgInfo.Marker

inductive Token where
  | name (text : Text)
  | literal (raw : Text)
  | operator (op : Operator)
  | connective (k : Connective)
  | stop
  deriving DecidableEq, Repr

inductive LexFault where
  | bareNumber
  | loneNot
  | unterminated
  | unsupported (c : Char)
  deriving DecidableEq, Repr

def LexFault.message : LexFault → Text
  | bareNumber => "unquoted numbers are not supported".toList
  | loneNot => "expected 'in' after 'not'".toList
  | unterminated => "unterminated string".toList
  | unsupported c => "unsupported token ".toList ++ Text.quotedChar c

def isQuote (c : Char) : Bool := c == '\x27' || c == '\x22'

def isQuoted (text : Text) : Bool :=
  match text with
  | c :: d :: rest => isQuote c && (d :: rest).getLast? == some c
  | _ => false

structure Cut where
  outcome : Except LexFault Token
  rest : Text
  deriving DecidableEq

def splitWord : Text → Text × Text := Text.splitDotted Text.isNamePart Text.isNameStart

-- Only a whole dotted word is a word with a meaning, and `not` wants the plain word `in` next.
def cutWord (text : Text) : Cut :=
  let (word, after) := splitWord text
  if word = "and".toList then ⟨.ok (.connective .and), after⟩
  else if word = "or".toList then ⟨.ok (.connective .or), after⟩
  else if word = "in".toList then ⟨.ok (.operator .inside), after⟩
  else if word = "not".toList then
    let next := Text.trimStart after
    if next.takeWhile Text.isNamePart = "in".toList then
      ⟨.ok (.operator .outside), next.dropWhile Text.isNamePart⟩
    else ⟨.error .loneNot, next⟩
  else ⟨.ok (.name word), after⟩

def cutLiteral (quote : Char) (rest : Text) : Cut :=
  match Text.splitOnce quote rest with
  | some (inner, after) => ⟨.ok (.literal (quote :: inner ++ [quote])), after⟩
  | none => ⟨.error .unterminated, quote :: rest⟩

def cutOperator (c : Char) (rest : Text) : Cut :=
  match c, rest with
  | '=', '=' :: after => ⟨.ok (.operator .equal), after⟩
  | '!', '=' :: after => ⟨.ok (.operator .notEqual), after⟩
  | '>', '=' :: after => ⟨.ok (.operator .greaterOrEqual), after⟩
  | '<', '=' :: after => ⟨.ok (.operator .lessOrEqual), after⟩
  | '>', after => ⟨.ok (.operator .greater), after⟩
  | '<', after => ⟨.ok (.operator .less), after⟩
  | _, _ => ⟨.error (.unsupported c), c :: rest⟩

def cut (text : Text) : Cut :=
  match Text.trimStart text with
  | [] => ⟨.ok .stop, []⟩
  | c :: rest =>
    if Text.isNameStart c then cutWord (c :: rest)
    else if isQuote c then cutLiteral c rest
    else if c.isDigit then ⟨.error .bareNumber, c :: rest⟩
    else cutOperator c rest

theorem lengthTrimStart (text : Text) : (Text.trimStart text).length ≤ text.length :=
  (List.dropWhile_sublist _).length_le

theorem lengthSplitWord {c : Char} {rest : Text} (start : Text.isNameStart c) :
    (splitWord (c :: rest)).2.length ≤ rest.length := by
  refine Text.lengthSplitDotted ?_
  simp only [Text.isNameStart, Text.isNamePart, Char.isAlphanum, Bool.or_eq_true] at start ⊢
  rcases start with letter | line
  · exact .inl (.inl letter)
  · exact .inr line

theorem lengthCut {text : Text} {t : Token} (good : (cut text).outcome = .ok t) (more : t ≠ .stop) :
    (cut text).rest.length < text.length := by
  have shorter := lengthTrimStart text
  unfold cut at good ⊢
  split at good
  · cases good; exact absurd rfl more
  · next c rest same =>
    rw [same] at shorter
    simp only [List.length_cons] at shorter
    split
    · next start =>
      rw [if_pos start] at good
      have behind : (splitWord (c :: rest)).2.length ≤ rest.length := lengthSplitWord start
      simp only [cutWord] at good ⊢
      split <;> try (simp only; omega)
      split <;> try (simp only; omega)
      split <;> try (simp only; omega)
      split <;> try (simp only; omega)
      next no1 no2 no3 yes =>
        rw [if_neg no1, if_neg no2, if_neg no3, if_pos yes] at good
        split
        · have tail := (List.dropWhile_sublist Text.isNamePart
            (l := Text.trimStart (splitWord (c :: rest)).2)).length_le
          have after := lengthTrimStart (splitWord (c :: rest)).2
          simp only
          omega
        · next no4 => rw [if_neg no4] at good; cases good
    · next noStart =>
      rw [if_neg noStart] at good
      split
      · next quote =>
        rw [if_pos quote] at good
        unfold cutLiteral at good ⊢
        split at good
        · next inner after found =>
          have whole := congrArg List.length (Text.splitOnceSome found).1
          simp only [List.length_append, List.length_cons] at whole
          simp only
          omega
        · cases good
      · next noQuote =>
        rw [if_neg noQuote] at good
        split
        · next digit => rw [if_pos digit] at good; cases good
        · next noDigit =>
          rw [if_neg noDigit] at good
          unfold cutOperator at good ⊢
          split at good <;> first | (simp only [List.length_cons] at shorter ⊢; omega) | cases good

structure Stuck where
  fault : LexFault
  rest : Text
  deriving DecidableEq, Repr

def tokens (text : Text) : List Token × Option Stuck :=
  match _ : (cut text).outcome with
  | .error fault => ([], some ⟨fault, (cut text).rest⟩)
  | .ok t =>
    if _ : t = .stop then ([.stop], none)
    else
      let (others, stuck) := tokens (cut text).rest
      (t :: others, stuck)
termination_by text.length
decreasing_by exact lengthCut ‹_› ‹_›

end PkgInfo.Marker
