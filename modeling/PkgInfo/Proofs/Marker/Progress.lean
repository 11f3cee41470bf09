import Mathlib.Logic.Function.Iterate
import PkgInfo.Marker.Builder
import PkgInfo.Proofs.Marker.Layout

/-! A lexer that is asked on and on, past faults and past the end. What it has left to read is always an end
of its source. A token takes a part off it, and so does a lone `not`; the end and every other fault come
again and again. So the tokens are bounded by the bytes of the source, and feeding them to a builder comes
to an end. -/
namespace PkgInfo.Marker
open Text

section
variable {text : Text}

theorem cutStart (text : Text) : cut (trimStart text) = cut text := by
  unfold cut
  rw [startTwice]

theorem cutRefused {fault : LexFault} (found : (cut text).outcome = .error fault) :
    (fault = .loneNot ∧ ∃ after, splitWord (trimStart text) = ("not".toList, after) ∧
      (cut text).rest = trimStart after) ∨
    (fault ≠ .loneNot ∧ (cut text).rest = trimStart text) := by
  have whole : cut text = ⟨.error fault, (cut text).rest⟩ := by rw [← found]
  generalize (cut text).rest = rest at whole
  unfold cut at whole
  split at whole
  · cases whole
  · next c behind starts =>
    rw [starts]
    split at whole
    · unfold cutWord at whole
      cases word : splitWord (c :: behind) with | mk name after =>
      simp only [word] at whole
      split at whole
      · cases whole
      · split at whole
        · cases whole
        · split at whole
          · cases whole
          · split at whole
            · next same =>
              split at whole
              · cases whole
              · cases whole
                exact .inl ⟨rfl, after, by rw [same], rfl⟩
            · cases whole
    · split at whole
      · unfold cutLiteral at whole
        split at whole
        · cases whole
        · cases whole
          exact .inr ⟨by simp, rfl⟩
      · split at whole
        · cases whole
          exact .inr ⟨by simp, rfl⟩
        · unfold Marker.cutOperator at whole
          split at whole <;> cases whole
          exact .inr ⟨by simp, rfl⟩

theorem cutEnd (found : (cut text).outcome = .ok .stop) : (cut text).rest = [] := by
  rcases cutTaken found with ⟨-, nothing⟩ | taken
  · unfold cut
    rw [nothing]
  · cases taken

theorem cutSuffix (text : Text) : (cut text).rest <:+ text := by
  cases outcome : (cut text).outcome with
  | ok t =>
    rcases cutTaken outcome with ⟨rfl, -⟩ | taken
    · rw [cutEnd outcome]
      exact List.nil_suffix
    · obtain ⟨lexeme, -, whole⟩ := lexemeWritten taken
      exact List.IsSuffix.trans ⟨lexeme, whole.symm⟩ (startSuffix text)
  | error fault =>
    rcases cutRefused outcome with ⟨-, after, word, left⟩ | ⟨-, left⟩
    · rw [left]
      exact (startSuffix after).trans
        (List.IsSuffix.trans ⟨_, (wordParts word).symm⟩ (startSuffix text))
    · rw [left]
      exact startSuffix text

theorem cutLoneNot (found : (cut text).outcome = .error .loneNot) :
    (cut text).rest.length < text.length := by
  rcases cutRefused found with ⟨-, after, word, left⟩ | ⟨other, -⟩
  · have whole := congrArg List.length (wordParts word)
    have behind := lengthTrimStart after
    have front := lengthTrimStart text
    rw [List.length_append] at whole
    rw [left]
    have three : "not".toList.length = 3 := rfl
    omega
  · contradiction

theorem cutAgain {fault : LexFault} (other : fault ≠ .loneNot)
    (found : (cut text).outcome = .error fault) : cut (cut text).rest = cut text := by
  rcases cutRefused found with ⟨same, -⟩ | ⟨-, left⟩
  · contradiction
  · rw [left, cutStart]

end

namespace Lexer

def reached (source : Text) (calls : Nat) : Lexer := advance^[calls] (start source)

theorem reachedNext (source : Text) (calls : Nat) :
    reached source (calls + 1) = (reached source calls).advance :=
  Function.iterate_succ_apply' advance calls (start source)

theorem reachedKeeps {P : Lexer → Prop} (keeps : ∀ l, P l → P l.advance) {source : Text} {m n : Nat}
    (later : m ≤ n) (now : P (reached source m)) : P (reached source n) := by
  induction later with
  | refl => exact now
  | @step n _ ih =>
    rw [reachedNext]
    exact keeps _ ih

theorem nextOk {l : Lexer} {t : Token} : l.next = .ok t ↔ (cut l.rest).outcome = .ok t := by
  unfold next
  cases (cut l.rest).outcome <;> simp

theorem nextError {l : Lexer} {fault : SyntaxFault} : l.next = .error fault ↔
    ∃ f, (cut l.rest).outcome = .error f ∧ fault = .lexical f l.advance.offset l.source := by
  unfold next
  cases (cut l.rest).outcome with
  | ok t => simp
  | error f =>
    simp only [Except.error.injEq, exists_eq_left']
    exact eq_comm

-- What a lexer keeps on its way through a source.
structure Within (source : Text) (l : Lexer) : Prop where
  origin : l.source = source
  ends : l.rest <:+ source

theorem advanceWithin {source : Text} {l : Lexer} (within : Within source l) :
    Within source l.advance :=
  ⟨within.origin, (cutSuffix l.rest).trans within.ends⟩

theorem reachedWithin (source : Text) (calls : Nat) : Within source (reached source calls) :=
  reachedKeeps (P := Within source) (fun _ => advanceWithin) (Nat.zero_le calls)
    ⟨rfl, List.suffix_refl source⟩

section
variable {source : Text} {l : Lexer}

theorem offsetFront (within : Within source l) :
    ∃ front, source = front ++ l.rest ∧ l.offset = byteSize front := by
  obtain ⟨front, whole⟩ := within.ends
  refine ⟨front, whole.symm, ?_⟩
  rw [offset, within.origin, ← whole, byteSizeAppend]
  omega

theorem offsetBeyond (within : Within source l) (shorter : (cut l.rest).rest.length < l.rest.length) :
    l.offset < l.advance.offset := by
  have less := byteSizeShorter (cutSuffix l.rest) shorter
  have inside := byteSizeSuffix within.ends
  simp only [offset, advance, within.origin]
  omega

end

theorem offsetOnward (l : Lexer) : l.offset ≤ l.advance.offset := by
  have shorter := byteSizeSuffix (cutSuffix l.rest)
  simp only [offset, advance]
  omega

theorem offsetLater {source : Text} {m n : Nat} (later : m ≤ n) :
    (reached source m).offset ≤ (reached source n).offset :=
  reachedKeeps (P := fun l => (reached source m).offset ≤ l.offset)
    (fun l before => before.trans (offsetOnward l)) later (Nat.le_refl _)

theorem endAgain {l : Lexer} (ended : l.next = .ok .stop) : l.advance.next = .ok .stop := by
  have nothing : l.advance.rest = [] := cutEnd (nextOk.1 ended)
  rw [nextOk, nothing]
  rfl

theorem faultAgain {l : Lexer} {f : LexFault} (other : f ≠ .loneNot) {place : Nat} {source : Text}
    (stuck : l.next = .error (.lexical f place source)) :
    l.advance.next = .error (.lexical f place source) := by
  obtain ⟨g, found, same⟩ := nextError.1 stuck
  cases same
  have again : cut l.advance.rest = cut l.rest := cutAgain other found
  rw [nextError]
  refine ⟨f, by rw [again, found], ?_⟩
  simp only [offset, advance] at again ⊢
  rw [again]

theorem itemsCalled {text : Text} {ts : List Token} {stuck : Option Stuck} (lexing : Lexed text ts stuck)
    {l : Lexer} (left : l.rest = text) {n : Nat} {outcome : Except SyntaxFault Token}
    (item : (ts.map .ok ++ stuck.toList.map fun s => .error ((l.onto s.rest).fault s.fault))[n]? =
      some outcome) : (advance^[n] l).next = outcome := by
  induction lexing generalizing l n with
  | @stuck text fault found =>
    cases n with
    | zero =>
      obtain rfl := Option.some.inj item
      subst left
      simp only [Function.iterate_zero_apply, next, found]
    | succ n => simp at item
  | stop found =>
    cases n with
    | zero =>
      obtain rfl := Option.some.inj item
      subst left
      exact nextOk.2 found
    | succ n => simp at item
  | @next text t others stuck found more onward ih =>
    subst left
    cases n with
    | zero =>
      obtain rfl := Option.some.inj item
      exact nextOk.2 found
    | succ n => exact ih (l := l.advance) rfl item

-- Each item but the last takes at least a byte.
theorem itemsBounded {text : Text} {ts : List Token} {stuck : Option Stuck}
    (lexing : Lexed text ts stuck) : ts.length + stuck.toList.length ≤ byteSize text + 1 := by
  induction lexing with
  | stuck found => simp
  | stop found => simp
  | next found more onward ih =>
    have less := byteSizeShorter (cutSuffix _) (lengthCut found more)
    rw [List.length_cons]
    omega

end Lexer

namespace Builder

def loop? : Nat → Lexer → Builder → Option (Except SyntaxFault Expr)
  | 0, _, _ => none
  | rounds + 1, l, b =>
    match l.next with
    | .error fault => some (.error fault)
    | .ok t =>
      match (b.feed t).outcome with
      | .error fault => some (.error fault)
      | .ok (some e) => some (.ok e)
      | .ok none => loop? rounds l.advance (b.feed t).next

theorem feedStop (b : Builder) : (b.feed .stop).outcome ≠ .ok none := by
  obtain ⟨stage, done, pending⟩ := b
  cases stage with
  | left | operator l | right l op => nofun
  | connective => cases done <;> nofun

theorem loopRuns {text : Text} {ts : List Token} {stuck : Option Stuck} (lexing : Lexed text ts stuck)
    {l : Lexer} (left : l.rest = text) {rounds : Nat} (enough : byteSize text < rounds) (b : Builder) :
    loop? rounds l b =
      some (b.run ((stuck.map fun s => (l.onto s.rest).fault s.fault).getD .empty) ts) := by
  induction lexing generalizing l rounds b with
  | @stuck text fault found =>
    obtain ⟨rounds, rfl⟩ := Nat.exists_eq_succ_of_ne_zero (Nat.ne_zero_of_lt enough)
    subst left
    simp only [loop?, Lexer.next, found, run, Option.map_some, Option.getD_some]
  | @stop text found =>
    obtain ⟨rounds, rfl⟩ := Nat.exists_eq_succ_of_ne_zero (Nat.ne_zero_of_lt enough)
    subst left
    cases outcome : (b.feed .stop).outcome with
    | error fault => simp only [loop?, Lexer.nextOk.2 found, run, outcome]
    | ok tree =>
      cases tree with
      | none => exact absurd outcome (feedStop b)
      | some e => simp only [loop?, Lexer.nextOk.2 found, run, outcome]
  | @next text t others stuck found more onward ih =>
    obtain ⟨rounds, rfl⟩ := Nat.exists_eq_succ_of_ne_zero (Nat.ne_zero_of_lt enough)
    subst left
    have less := byteSizeShorter (cutSuffix _) (lengthCut found more)
    cases outcome : (b.feed t).outcome with
    | error fault => simp only [loop?, Lexer.nextOk.2 found, run, outcome]
    | ok tree =>
      cases tree with
      | none =>
        simp only [loop?, Lexer.nextOk.2 found, run, outcome]
        exact ih (l := l.advance) rfl (by omega) (b.feed t).next
      | some e => simp only [loop?, Lexer.nextOk.2 found, run, outcome]

end Builder

/-- However often a lexer is asked, it stands between two characters of its source and never goes back. A
token that is not the end takes it on, and so does a lone `not`; the end and every other fault are met
again by every later call. There are no more tokens than bytes and one, and the rounds of reading a
marker end before there are more. -/
theorem callsProgress (source : Text) :
    let l := Lexer.reached source
    (∀ n, ∃ front, source = front ++ (l n).rest ∧ (l n).offset = byteSize front) ∧
    (∀ m n, m ≤ n → (l m).offset ≤ (l n).offset ∧ (l n).offset ≤ byteSize source) ∧
    (∀ n t, (l n).next = .ok t → t ≠ .stop → (l n).offset < (l (n + 1)).offset) ∧
    (∀ m n, m ≤ n → (l m).next = .ok .stop → (l n).next = .ok .stop) ∧
    (∀ m fault, (l m).next = .error fault → ∃ f, fault = .lexical f (l (m + 1)).offset source ∧
      (f = .loneNot → (l m).offset < (l (m + 1)).offset) ∧
      (f ≠ .loneNot → ∀ n, m ≤ n → (l n).next = .error fault)) ∧
    (∀ n item, (Lexer.start source).items[n]? = some item → (l n).next = item) ∧
    (Lexer.start source).items.length ≤ byteSize source + 1 ∧
    (∀ ts, tokenize source = .ok ts → ts.length ≤ byteSize source + 1) ∧
    ∀ rounds, byteSize source < rounds →
      Builder.loop? rounds (.start source) .start = some (parse source) := by
  intro l
  have within : ∀ n, Lexer.Within source (l n) := Lexer.reachedWithin source
  have onward : ∀ n, l (n + 1) = (l n).advance := Lexer.reachedNext source
  have lexing := lexed source
  have bounded := Lexer.itemsBounded lexing
  refine ⟨fun n => Lexer.offsetFront (within n), fun m n later => ?_, fun n t found more => ?_,
    fun m n => Lexer.reachedKeeps (P := fun l => l.next = .ok .stop) fun _ => Lexer.endAgain,
    fun m fault stuck => ?_, fun n item => Lexer.itemsCalled lexing rfl, ?_, fun ts tokenized => ?_,
    fun rounds enough => Builder.loopRuns lexing rfl enough .start⟩
  · obtain ⟨front, whole, place⟩ := Lexer.offsetFront (within n)
    refine ⟨Lexer.offsetLater later, ?_⟩
    rw [place, whole, byteSizeAppend]
    omega
  · rw [onward]
    exact Lexer.offsetBeyond (within n) (lengthCut (Lexer.nextOk.1 found) more)
  · obtain ⟨f, found, same⟩ := Lexer.nextError.1 stuck
    rw [(within m).origin, ← onward] at same
    refine ⟨f, same, fun lone => ?_, fun other n later => ?_⟩
    · rw [onward]
      exact Lexer.offsetBeyond (within m) (cutLoneNot (lone ▸ found))
    · rw [same] at stuck ⊢
      exact Lexer.reachedKeeps (P := fun l => l.next = .error (.lexical f _ source))
        (fun _ => Lexer.faultAgain other) later stuck
  · have items : (Lexer.start source).items.length =
        (tokens source).1.length + (tokens source).2.toList.length := by
      simp [Lexer.items, Lexer.start]
    rwa [items]
  · rw [tokenizeOk.1 tokenized] at bounded
    exact bounded

theorem callsProgressStuck :
    let source := "not 'a' é".toList
    let l := Lexer.reached source
    (l 0).next = .error (.lexical .loneNot 4 source) ∧ (l 0).offset < (l 1).offset ∧
      (l 1).next = .ok (.literal "'a'".toList) ∧ (l 1).offset < (l 2).offset ∧
      (∀ n, 2 ≤ n → (l n).next = .error (.lexical (.unsupported 'é') 8 source)) ∧
      Builder.loop? 11 (.start source) .start = some (parse source) := by
  intro source l
  obtain ⟨_, _, onward, _, faults, _, _, _, ends⟩ := callsProgress source
  have lone : (l 0).next = .error (.lexical .loneNot 4 source) := by decide +kernel
  have literal : (l 1).next = .ok (.literal "'a'".toList) := by decide +kernel
  have stuck : (l 2).next = .error (.lexical (.unsupported 'é') 8 source) := by decide +kernel
  obtain ⟨f, same, past, _⟩ := faults 0 _ lone
  obtain ⟨g, same', _, again⟩ := faults 2 _ stuck
  cases same
  cases same'
  exact ⟨lone, past rfl, literal, onward 1 _ literal nofun, again (by simp), ends 11 (by decide)⟩

end PkgInfo.Marker
