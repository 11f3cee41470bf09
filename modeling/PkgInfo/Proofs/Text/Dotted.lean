import PkgInfo.Proofs.Text.Lines
import PkgInfo.Text.Dotted

/-! Words joined by dots, as they are cut off the front of a text: each of them starts as a word does and
goes on as one. Words of this kind are cut off as a whole where the text behind does not go on with them. -/
namespace PkgInfo.Text
variable {isPart isStart : Char → Bool}

theorem dottedPieces (begins : ∀ c, isStart c = true → isPart c = true) (dotless : isPart '.' = false)
    (text : Text) :
    ∃ first others, pieces '.' (splitDotted isPart isStart text).1 = first :: others ∧
      (∀ c ∈ first, isPart c = true) ∧
      (text.head?.any isStart = true → first.head? = text.head?) ∧
      ∀ word ∈ others, word.head?.any isStart = true ∧ ∀ c ∈ word, isPart c = true := by
  induction text with
  | nil => exact ⟨[], [], rfl, nofun, nofun, nofun⟩
  | cons c rest ih =>
    obtain ⟨first, others, cut, parts, head, each⟩ := ih
    simp only [splitDotted]
    cases part : isPart c with
    | true =>
      have noDot : c ≠ '.' := fun dot => by rw [dot, dotless] at part; contradiction
      have names : ∀ d ∈ c :: first, isPart d = true := List.forall_mem_cons.2 ⟨part, parts⟩
      simp only [Bool.true_or, if_true, pieces, noDot, if_false, cut, extendFirst]
      exact ⟨c :: first, others, rfl, names, fun _ => rfl, each⟩
    | false =>
      have noStart : ¬ (c :: rest).head?.any isStart = true := fun start => by
        rw [begins c start] at part
        contradiction
      simp only [Bool.false_or, Bool.and_eq_true, beq_iff_eq]
      split
      · next dot =>
        have second : first.head?.any isStart = true := by rw [head dot.2]; exact dot.2
        simp only [pieces, dot.1, if_true, cut]
        exact ⟨[], first :: others, rfl, nofun, fun start => absurd start (dot.1 ▸ noStart),
          List.forall_mem_cons.2 ⟨⟨second, parts⟩, each⟩⟩
      · exact ⟨[], [], rfl, nofun, fun start => absurd start noStart, nofun⟩

theorem dottedWords (begins : ∀ c, isStart c = true → isPart c = true) (dotless : isPart '.' = false)
    {text : Text} (start : text.head?.any isStart = true) :
    ∀ word ∈ pieces '.' (splitDotted isPart isStart text).1,
      word.head?.any isStart = true ∧ ∀ c ∈ word, isPart c = true := by
  obtain ⟨first, others, cut, parts, head, each⟩ := dottedPieces begins dotless text
  rw [cut]
  exact List.forall_mem_cons.2 ⟨⟨by rw [head start]; exact start, parts⟩, each⟩

theorem startsAppend {p : Char → Bool} {text : Text} (starts : text.head?.any p = true) (rest : Text) :
    (text ++ rest).head?.any p = true := by
  cases text with
  | nil => contradiction
  | cons c more => exact starts

theorem dottedParts {word : Text} (parts : ∀ c ∈ word, isPart c = true) (rest : Text) :
    splitDotted isPart isStart (word ++ rest) =
      (word ++ (splitDotted isPart isStart rest).1, (splitDotted isPart isStart rest).2) := by
  induction word with
  | nil => rfl
  | cons c more ih =>
    obtain ⟨part, later⟩ := List.forall_mem_cons.1 parts
    simp only [List.cons_append, splitDotted, part, Bool.true_or, if_true, ih later]

theorem dottedJoined {words : List Text} (some : words ≠ [])
    (each : ∀ word ∈ words, word.head?.any isStart = true ∧ ∀ c ∈ word, isPart c = true) {rest : Text}
    (ends : splitDotted isPart isStart rest = ([], rest)) :
    splitDotted isPart isStart (joined ['.'] words ++ rest) = (joined ['.'] words, rest) := by
  induction words with
  | nil => contradiction
  | cons first others ih =>
    obtain ⟨head, tail⟩ := List.forall_mem_cons.1 each
    cases others with
    | nil => rw [joined, dottedParts head.2, ends, List.append_nil]
    | cons second more =>
      have next : (joined ['.'] (second :: more) ++ rest).head?.any isStart = true := by
        rw [joinedCons, List.append_assoc]
        exact startsAppend (tail second List.mem_cons_self).1 _
      have shape : joined ['.'] (first :: second :: more) ++ rest =
          first ++ '.' :: (joined ['.'] (second :: more) ++ rest) := by simp [joined]
      have dot : splitDotted isPart isStart ('.' :: (joined ['.'] (second :: more) ++ rest)) =
          ('.' :: joined ['.'] (second :: more), rest) := by
        simp only [splitDotted, next, beq_self_eq_true, Bool.true_and, Bool.or_true, if_true,
          ih (List.cons_ne_nil _ _) tail]
      rw [shape, dottedParts head.2, dot]
      simp [joined]

end PkgInfo.Text
