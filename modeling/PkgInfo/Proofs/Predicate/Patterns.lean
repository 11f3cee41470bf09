import PkgInfo.Proofs.Predicate.Grammar
import PkgInfo.Proofs.Text.Pattern

/-! The patterns that predicates are described by. Each is cut by a reader of its own, which goes through
the text once; what the reader gives is what the pattern's groups take. -/
namespace PkgInfo.Predicate
open Text Pattern

def blanks : Pattern := many (one isBlank)

def dots : Pattern := many (seq (one (· == '.')) (many (one isWord)))

def nameAndRest : Pattern :=
  seq (group (seq (one isWord) (seq (many (one isNameChar)) dots))) (group (many (one (· != '\n'))))

-- `^\s*(\w[\s\w-]*(?:\.\w*)*)(.*)$`
def namePattern : Pattern :=
  seq blanks nameAndRest

-- `^\((.*)\)$`
def parenthesized : Pattern :=
  seq (one (· == '(')) (seq (group (many (one (· != '\n')))) (one (· == ')')))

def relationPattern : Pattern :=
  either (word "<=".toList) <| either (word ">=".toList) <| either (word "<".toList) <|
    either (word ">".toList) <| either (word "!=".toList) (word "==".toList)

def isOperandChar (c : Char) : Bool := !isBlank c && c != ','

-- `^\s*(<=|>=|<|>|!=|==)\s*([^\s,]+)\s*$`
def constraintPattern : Pattern :=
  seq blanks (seq (group relationPattern) (seq blanks (seq (group (several isOperandChar)) blanks)))

def digits : Pattern := several isDecimal

def furtherRuns : Pattern := many (seq (one (· == '.')) digits)

def phases : Pattern := either (one fun c => c == 'a' || c == 'b' || c == 'c') (word "rc".toList)

-- `^\d+\.\d+(?:\.\d+)*(?:(?:[abc]|rc)\d+(?:\.\d+)*)?(?:\.post\d+)?(?:\.dev\d+)?$`
def numberPattern : Pattern :=
  seq (seq digits (seq (one (· == '.')) (seq digits furtherRuns))) <|
    seq (optional (seq phases (seq digits furtherRuns))) <|
    seq (optional (seq (word ".post".toList) digits)) (optional (seq (word ".dev".toList) digits))

section
variable {α : Type} {next : List Text → Text → Option α} {text : Text}

def behindDots (text : Text) : Text := if text.head? = some '.' then text.dropWhile isDottedChar else text

theorem behindWord (text : Text) : behindDots (text.dropWhile isWord) = text.dropWhile isDottedChar := by
  induction text with
  | nil => rfl
  | cons c rest ih =>
    cases word : isWord c with
    | true =>
      have dotted : isDottedChar c = true := by simp [isDottedChar, word]
      rw [List.dropWhile_cons_of_pos word, List.dropWhile_cons_of_pos dotted, ih]
    | false =>
      rw [List.dropWhile_cons_of_neg (by simp [word]), behindDots]
      split
      · rfl
      · next other =>
        have ends : isDottedChar c = false := by simpa [isDottedChar, word] using other
        rw [List.dropWhile_cons_of_neg (by simp [ends])]

theorem behindFails {next : Text → Option α} (persists : Persists isDottedChar next)
    (fails : next (behindDots text) = none) : next text = none := by
  unfold behindDots at fails
  split at fails
  · exact failsBefore persists fails
  · exact fails

theorem dotsNil : dots.first next [] = next [] [] := by
  rw [dots, firstMany, firstSeq, firstOneNil, Option.none_or]

theorem dotsOther {c : Char} (other : c ≠ '.') (rest : Text) :
    dots.first next (c :: rest) = next [] (c :: rest) := by
  rw [dots, firstMany, firstSeq, firstOne]
  simp [other]

theorem dotsPoint (rest : Text) : dots.first next ('.' :: rest) =
    ((many (one isWord)).first (fun more mid => if mid.length < rest.length + 1
      then dots.first (fun others => next (more ++ others)) mid else none) rest).or (next [] ('.' :: rest)) := by
  rw [dots, firstMany, firstSeq, firstOne]
  rfl

theorem dotsFirst (persists : Persists isDottedChar (next [])) :
    dots.first next text = next [] (behindDots text) := by
  induction size : text.length using Nat.strong_induction_on generalizing text with
  | _ n ih =>
    have shorter : ∀ mid : Text, mid.length < n → dots.first next mid = next [] (behindDots mid) :=
      fun mid within => ih _ within rfl
    cases text with
    | nil => exact dotsNil
    | cons c rest =>
      by_cases dot : c = '.'
      · subst dot
        have point : isDottedChar '.' = true := by decide
        -- Words do not start with a point, so the next round can give none of them back either.
        have words : Persists isWord fun mid : Text =>
            if mid.length < rest.length + 1 then dots.first next mid else none := by
          intro d tail word fails
          dsimp only at fails ⊢
          split
          · next within =>
            have inside : tail.length < rest.length + 1 := by
              rw [List.length_cons] at within
              omega
            have other : d ≠ '.' := by
              rintro rfl
              exact absurd word (by decide)
            rw [if_pos inside, shorter tail (size ▸ inside)] at fails
            rw [dotsOther other]
            exact persists d tail (by simp [isDottedChar, word]) (behindFails persists fails)
          · rfl
        have within : (rest.dropWhile isWord).length < rest.length + 1 :=
          Nat.lt_succ_of_le (List.dropWhile_sublist isWord).length_le
        rw [dotsPoint, manyOne words, if_pos within, behindDots, List.head?_cons, if_pos rfl,
          List.dropWhile_cons_of_pos point]
        simp only [List.nil_append]
        rw [shorter _ (size ▸ within), behindWord]
        cases goes : next [] (rest.dropWhile isDottedChar) with
        | some result => rfl
        | none => rw [persists '.' rest point (failsBefore persists goes), Option.none_or]
      · rw [dotsOther dot, behindDots, if_neg (by simpa using dot)]

end

theorem lineFirst (front : List Text) (text : Text) :
    (group (many (one (· != '\n')))).first (fun more => atEnd (front ++ more)) text =
      if '\n' ∈ text then none else some (front ++ [text]) := by
  have whole : text.dropWhile (· != '\n') = [] ↔ '\n' ∉ text := by
    rw [List.dropWhile_eq_nil_iff]
    simp only [bne_iff_ne]
    exact ⟨fun each member => each _ member rfl, fun apart c member same => apart (same ▸ member)⟩
  rw [firstGroup, manyOne fun _ _ _ _ => rfl, atEnd]
  by_cases line : '\n' ∈ text
  · rw [if_neg (mt whole.1 (not_not.2 line)), if_pos line]
  · rw [whole.2 line, if_pos rfl, if_neg line]
    simp

theorem behindName (text : Text) : behindDots (text.dropWhile isNameChar) = (splitName text).2 := by
  rw [splitName, behindDots]
  split
  · rfl
  · next other =>
    refine (spanStops fun c first => ?_).2.symm
    have noName : isNameChar c = false := by
      have := List.head?_dropWhile_not isNameChar text
      rw [Option.mem_def.1 first] at this
      simpa using this
    exact endNotDotted noName fun dot => other (dot ▸ first)

def nameGroups (text behind : Text) : Option (List Text) :=
  if '\n' ∈ behind then none else some [text.take (text.length - behind.length), behind]

theorem groupsPersist (accepts : Char → Bool) (text : Text) : Persists accepts (nameGroups text) := by
  intro c rest _ fails
  have line : '\n' ∈ rest := by simpa [nameGroups] using fails
  simp [nameGroups, line]

theorem namesPersist (text : Text) : Persists isNameChar fun mid => nameGroups text (behindDots mid) := by
  intro c rest name fails
  have other : c ≠ '.' := by
    rintro rfl
    rw [dotNoName] at name
    contradiction
  have before : nameGroups text rest = none :=
    behindFails (groupsPersist isDottedChar text) fails
  dsimp only
  rw [behindDots, if_neg (by simpa using other)]
  exact groupsPersist isNameChar text c rest name before

theorem dotsGroups {next : List Text → Text → Option (List Text)} {text : Text}
    (same : next [] = nameGroups text) (mid : Text) : dots.first next mid = nameGroups text (behindDots mid) := by
  rw [dotsFirst (same ▸ groupsPersist isDottedChar text), same]

theorem wordMatched {c : Char} (word : isWord c = true) (rest : Text) :
    nameAndRest.first atEnd (c :: rest) = nameGroups (c :: rest) (splitName (c :: rest)).2 := by
  have named : (c :: rest).dropWhile isNameChar = rest.dropWhile isNameChar :=
    List.dropWhile_cons_of_pos (wordName word)
  rw [nameAndRest, firstSeq, firstGroup, firstSeq, firstOne, if_pos word, firstSeq, ← behindName, named]
  simp only [lineFirst]
  refine (manyOne fun d tail name fails => ?_).trans (dotsGroups rfl _)
  rw [dotsGroups rfl] at fails ⊢
  exact namesPersist (c :: rest) d tail name fails

theorem nameMatched {text : Text} (solid : ∀ c ∈ text.head?, isBlank c = false) :
    groups? namePattern text =
      if text.head?.any isWord ∧ '\n' ∉ (splitName text).2 then some [(splitName text).1, (splitName text).2]
      else none := by
  have words : Persists isBlank fun mid : Text => nameAndRest.first atEnd mid := by
    intro c rest blank _
    have noWord : isWord c = false := Bool.eq_false_iff.2 fun word => by
      rw [wordSolid word] at blank
      contradiction
    simp [nameAndRest, noWord]
  rw [groups?, namePattern, firstSeq, blanks, manyOne words, (spanStops solid).2]
  cases text with
  | nil => rfl
  | cons c rest =>
    cases start : isWord c with
    | false => simp [nameAndRest, start]
    | true =>
      have front := takeFront (splitName (c :: rest)).1 (splitName (c :: rest)).2
      rw [splitNameWhole] at front
      refine (wordMatched start rest).trans ?_
      rw [nameGroups, front]
      by_cases line : '\n' ∈ (splitName (c :: rest)).2 <;> simp [start, line]

theorem closingFirst {α : Type} {accepts : Char → Bool} {next : List Text → Text → Option α}
    (only : ∀ mid, mid ≠ [')'] → next [] mid = none) {text : Text} (each : ∀ c ∈ text, accepts c = true) :
    (many (one accepts)).first next text = if text.getLast? = some ')' then next [] [')'] else none := by
  induction text with
  | nil => exact manyOneNil.trans (only [] nofun)
  | cons c rest ih =>
    obtain ⟨taken, others⟩ := List.forall_mem_cons.1 each
    rw [manyOneCons, if_pos taken, ih others]
    cases rest with
    | nil =>
      rw [List.getLast?_nil, if_neg nofun, Option.none_or, List.getLast?_singleton]
      split
      · next same => rw [Option.some.inj same]
      · next other => exact only [c] fun same => other (by rw [List.singleton_inj.1 same])
    | cons d more =>
      rw [only (c :: d :: more) (by simp), Option.or_none, List.getLast?_cons_cons]

theorem closedFirst {text : Text} (line : '\n' ∉ text) :
    (seq (group (many (one (· != '\n')))) (one (· == ')'))).first atEnd text =
      if text.getLast? = some ')' then some [text.dropLast] else none := by
  have each : ∀ c ∈ text, (c != '\n') = true := by
    intro c member
    simp only [bne_iff_ne]
    rintro rfl
    exact line member
  rw [firstSeq, firstGroup, closingFirst (fun mid other => ?_) each]
  · simp [firstOne, atEnd, List.dropLast_eq_take]
  · cases mid with
    | nil => rfl
    | cons c rest =>
      rw [firstOne]
      split
      · next closes =>
        have more : rest ≠ [] := by
          rintro rfl
          exact other (by rw [eq_of_beq closes])
        rw [atEnd, if_neg more]
      · rfl

theorem parenthesesMatched {text : Text} (line : '\n' ∉ text) :
    withoutParentheses text = ((groups? parenthesized text).bind List.head?).getD text := by
  cases text with
  | nil => rfl
  | cons c rest =>
    rw [groups?, parenthesized, firstSeq, firstOne]
    by_cases opens : c = '('
    · subst opens
      have inner := closedFirst fun member => line (List.mem_cons_of_mem '(' member)
      simp only [List.nil_append, beq_self_eq_true, if_true, inner, withoutParentheses]
      split <;> rfl
    · simp [opens, withoutParentheses]

theorem relationFirst {α : Type} (next : List Text → Text → Option α) (text : Text) :
    (group relationPattern).first next text =
      Relation.all.findSome? fun r => (stripLead? r.spelling text).bind (next [r.spelling]) := by
  have each (w : Text) : (word w).first (fun groups rest =>
      next (text.take (text.length - rest.length) :: groups) rest) text =
        (stripLead? w text).bind (next [w]) := by
    rw [firstWord]
    cases lead : stripLead? w text with
    | none => rfl
    | some rest =>
      obtain rfl := stripLeadSome.1 lead
      simp
  have found (f : Relation → Option α) (r : Relation) (others : List Relation) :
      (r :: others).findSome? f = (f r).or (others.findSome? f) := by
    rw [List.findSome?_cons]
    cases f r <;> rfl
  simp only [firstGroup, relationPattern, firstEither, each, Relation.all, found, List.findSome?_nil,
    Option.or_none, Relation.spelling]

theorem blanksEnd (front : List Text) (text : Text) :
    blanks.first (fun more => atEnd (front ++ more)) text = if text.all isBlank then some front else none := by
  rw [blanks, manyOne fun _ _ _ _ => rfl, atEnd, List.append_nil]
  simp only [List.dropWhile_eq_nil_iff, List.all_eq_true]

theorem operandSolid {c : Char} : isOperandChar c = true ↔ isBlank c = false ∧ c ≠ ',' := by
  simp [isOperandChar]

theorem operandTaken (front : List Text) (c : Char) (rest : Text) :
    (seq (group (several isOperandChar)) blanks).first (fun more => atEnd (front ++ more)) (c :: rest) =
      if isOperandChar c = true ∧ (rest.dropWhile isOperandChar).all isBlank = true
      then some (front ++ [c :: rest.takeWhile isOperandChar]) else none := by
  rw [firstSeq, firstGroup, several, firstSeq, firstOne]
  simp only [← List.append_assoc, blanksEnd]
  cases operand : isOperandChar c with
  | false => simp
  | true =>
    have taken := takeFront (c :: rest.takeWhile isOperandChar) (rest.dropWhile isOperandChar)
    rw [List.cons_append, List.takeWhile_append_dropWhile] at taken
    rw [if_pos rfl, manyOne, taken]
    · simp
    · intro d tail also _
      simp [(operandSolid.1 also).1]

theorem operandEnd {front groups : List Text} {text : Text} :
    (seq (group (several isOperandChar)) blanks).first (fun more => atEnd (front ++ more)) text = some groups ↔
      ∃ word after, Constraint.Word word ∧ (∀ c ∈ after, isBlank c = true) ∧ text = word ++ after ∧
        groups = front ++ [word] := by
  constructor
  · intro found
    cases text with
    | nil =>
      rw [firstSeq, firstGroup, several, firstSeq, firstOneNil] at found
      contradiction
    | cons c rest =>
      rw [operandTaken] at found
      split at found
      · next ends =>
        have solid : ∀ d ∈ c :: rest.takeWhile isOperandChar, isBlank d = false ∧ d ≠ ',' := by
          refine List.forall_mem_cons.2 ⟨operandSolid.1 ends.1, fun d member => ?_⟩
          exact operandSolid.1 (List.mem_takeWhile_imp member)
        refine ⟨_, _, ⟨List.cons_ne_nil _ _, solid⟩, List.all_eq_true.1 ends.2, ?_, (Option.some.inj found).symm⟩
        rw [List.cons_append, List.takeWhile_append_dropWhile]
      · contradiction
  · rintro ⟨word, after, ⟨some, solid⟩, blank, rfl, rfl⟩
    obtain ⟨c, rest, rfl⟩ := List.exists_cons_of_ne_nil some
    obtain ⟨first, others⟩ := List.forall_mem_cons.1 solid
    have each : ∀ d ∈ rest, isOperandChar d = true := fun d member => operandSolid.2 (others d member)
    have ends : ∀ d ∈ after.head?, isOperandChar d = false := fun d member => by
      simp [isOperandChar, blank d (List.mem_of_mem_head? member)]
    obtain ⟨none, all⟩ := spanStops ends
    rw [List.cons_append, operandTaken, List.takeWhile_append_of_pos each, List.dropWhile_append_of_pos each,
      none, all, if_pos ⟨operandSolid.2 first, List.all_eq_true.2 blank⟩, List.append_nil]

theorem operandFirst {front groups : List Text} {text : Text} :
    (seq blanks (seq (group (several isOperandChar)) blanks)).first (fun more => atEnd (front ++ more)) text =
      some groups ↔ ∃ gap word after, (∀ c ∈ gap, isBlank c = true) ∧ Constraint.Word word ∧
        (∀ c ∈ after, isBlank c = true) ∧ text = gap ++ (word ++ after) ∧ groups = front ++ [word] := by
  have words : Persists isBlank fun mid => (seq (group (several isOperandChar)) blanks).first
      (fun more => atEnd (front ++ ([] ++ more))) mid := by
    intro c rest blank _
    refine (operandTaken front c rest).trans (if_neg fun ends => ?_)
    rw [(operandSolid.1 ends.1).1] at blank
    contradiction
  rw [firstSeq, blanks, manyOne words]
  refine operandEnd.trans ⟨?_, ?_⟩
  · rintro ⟨word, after, single, blank, whole, rfl⟩
    obtain ⟨gap, between, same⟩ := startSplit text
    exact ⟨gap, word, after, between, single, blank, same.trans (congrArg (gap ++ ·) whole), rfl⟩
  · rintro ⟨gap, word, after, between, single, blank, rfl, rfl⟩
    refine ⟨word, after, single, blank, ?_, rfl⟩
    obtain ⟨c, rest, same⟩ := List.exists_cons_of_ne_nil single.some
    rw [List.dropWhile_append_of_pos between]
    have solid : isBlank c = false := (single.solid c (by rw [same]; exact List.mem_cons_self)).1
    rw [same, List.cons_append]
    exact startSolid solid (rest ++ after)

theorem signStarts (r : Relation) : ∃ c rest, r.spelling = c :: rest ∧ isBlank c = false := by
  obtain ⟨some, solid⟩ := r.spellingEnds
  obtain ⟨c, rest, same⟩ := List.exists_cons_of_ne_nil some
  exact ⟨c, rest, same, solid c (by rw [same]; exact List.mem_cons_self)⟩

theorem relatedStart {r : Relation} {word item : Text} : Constraint.Related r word item ↔
    ∃ gap after, (∀ c ∈ gap, isBlank c = true) ∧ Constraint.Word word ∧ (∀ c ∈ after, isBlank c = true) ∧
      trimStart item = r.spelling ++ (gap ++ (word ++ after)) := by
  constructor
  · rintro @⟨before, gap, after, front, between, behind, single⟩
    obtain ⟨c, rest, same, solid⟩ := signStarts r
    refine ⟨gap, after, between, single, behind, ?_⟩
    rw [List.append_assoc, trimStart, List.dropWhile_append_of_pos front, List.append_assoc, List.append_assoc,
      same, List.cons_append]
    exact startSolid solid _
  · rintro ⟨gap, after, between, single, behind, whole⟩
    obtain ⟨before, front, same⟩ := startSplit item
    rw [same, whole, ← List.append_assoc gap, ← List.append_assoc r.spelling, ← List.append_assoc r.spelling,
      ← List.append_assoc before]
    exact .parts front between behind single

theorem relationMatched (r : Relation) (item : Text) :
    (stripLead? r.spelling (trimStart item)).bind ((seq blanks (seq (group (several isOperandChar)) blanks)).first
        fun more => atEnd ([r.spelling] ++ more)) =
      ((stripLead? r.spelling (trim item)).bind fun behind =>
        (Constraint.operand? behind).map fun word => (r, word)).map fun (r, word) => [r.spelling, word] := by
  refine Option.ext fun groups => ?_
  simp only [Option.bind_eq_some_iff, stripLeadSome, operandFirst]
  constructor
  · rintro ⟨behind, whole, gap, word, after, between, single, blank, rfl, rfl⟩
    rw [Constraint.relatedIff.1 (relatedStart.2 ⟨gap, after, between, single, blank, whole⟩)]
    rfl
  · intro found
    obtain ⟨⟨s, word⟩, chosen, rfl⟩ := Option.map_eq_some_iff.1 found
    obtain rfl : s = r := by
      obtain ⟨_, _, taken⟩ := Option.bind_eq_some_iff.1 chosen
      obtain ⟨_, _, same⟩ := Option.map_eq_some_iff.1 taken
      exact (Prod.mk.inj same).1.symm
    obtain ⟨gap, after, between, single, blank, whole⟩ := relatedStart.1 (Constraint.relatedIff.2 chosen)
    exact ⟨_, whole, gap, word, after, between, single, blank, rfl, rfl⟩

theorem constraintMatched (item : Text) : groups? constraintPattern item =
    (Constraint.split? (trim item)).map fun (r, word) => [r.spelling, word] := by
  have words : Persists isBlank fun mid => (seq (group relationPattern) (seq blanks
      (seq (group (several isOperandChar)) blanks))).first (fun more => atEnd ([] ++ more)) mid := by
    intro c rest blank _
    dsimp only
    rw [firstSeq, relationFirst, List.findSome?_eq_none_iff]
    intro r _
    cases lead : stripLead? r.spelling (c :: rest) with
    | none => rfl
    | some behind =>
      obtain ⟨d, more, same, solid⟩ := signStarts r
      have starts := stripLeadSome.1 lead
      rw [same, List.cons_append] at starts
      obtain ⟨rfl, _⟩ := List.cons.inj starts
      rw [solid] at blank
      contradiction
  rw [groups?, constraintPattern, firstSeq, blanks, manyOne words, firstSeq, relationFirst, Constraint.split?,
    List.map_findSome?]
  congr
  funext r
  exact relationMatched r item

theorem digitsSpell {text : Text} : digits.Spells text ↔ Digits text := by
  rw [digits, severalSpells]
  exact ⟨fun ⟨filled, each⟩ => ⟨filled, each⟩, fun run => ⟨run.some, run.each⟩⟩

theorem furtherSpell {text : Text} : furtherRuns.Spells text ↔
    ∃ runs : List Text, (∀ run ∈ runs, Digits run) ∧ text = runs.flatMap (['.'] ++ ·) := by
  simp only [furtherRuns, Spells, digitsSpell, beq_iff_eq]
  constructor
  · rintro ⟨parts, each, rfl⟩
    induction parts with
    | nil => exact ⟨[], List.forall_mem_nil _, rfl⟩
    | cons part others ih =>
      obtain ⟨⟨⟨_, run, ⟨c, rfl, rfl⟩, first, rfl⟩, _⟩, more⟩ := List.forall_mem_cons.1 each
      obtain ⟨runs, digits, same⟩ := ih more
      refine ⟨run :: runs, List.forall_mem_cons.2 ⟨first, digits⟩, ?_⟩
      rw [List.flatten_cons, same, List.flatMap_cons]
  · rintro ⟨runs, each, rfl⟩
    refine ⟨runs.map (['.'] ++ ·), ?_, rfl⟩
    intro part member
    obtain ⟨run, inside, rfl⟩ := List.mem_map.1 member
    exact ⟨⟨['.'], run, ⟨'.', rfl, rfl⟩, each run inside, rfl⟩, List.cons_ne_nil '.' run⟩

theorem runsSpell {text : Text} : (seq digits furtherRuns).Spells text ↔
    ∃ runs : List Text, runs ≠ [] ∧ (∀ run ∈ runs, Digits run) ∧ text = Number.runsText runs := by
  simp only [Spells, digitsSpell, furtherSpell]
  constructor
  · rintro ⟨first, _, one, ⟨others, each, rfl⟩, rfl⟩
    exact ⟨first :: others, List.cons_ne_nil _ _, List.forall_mem_cons.2 ⟨one, each⟩, (joinedCons _ _ _).symm⟩
  · rintro ⟨runs, some, each, rfl⟩
    obtain ⟨first, others, rfl⟩ := List.exists_cons_of_ne_nil some
    obtain ⟨one, more⟩ := List.forall_mem_cons.1 each
    exact ⟨first, _, one, ⟨others, more, rfl⟩, joinedCons _ _ _⟩

theorem phaseSpell {text : Text} : phases.Spells text ↔ ∃ phase : Phase, text = phase.spelling := by
  simp only [phases, Spells, wordSpells, Bool.or_eq_true, beq_iff_eq]
  constructor
  · rintro (⟨c, (rfl | rfl) | rfl, rfl⟩ | rfl)
    · exact ⟨.a, rfl⟩
    · exact ⟨.b, rfl⟩
    · exact ⟨.c, rfl⟩
    · exact ⟨.rc, rfl⟩
  · rintro ⟨phase, rfl⟩
    cases phase with
    | a => exact .inl ⟨'a', .inl (.inl rfl), rfl⟩
    | b => exact .inl ⟨'b', .inl (.inr rfl), rfl⟩
    | c => exact .inl ⟨'c', .inr rfl, rfl⟩
    | rc => exact .inr rfl

theorem preReleaseSpell {text : Text} : (optional (seq phases (seq digits furtherRuns))).Spells text ↔
    ∃ part : Option (Phase × List Text),
      (∀ p ∈ part, p.2 ≠ [] ∧ ∀ run ∈ p.2, Digits run) ∧ text = Number.phaseText part := by
  constructor
  · rintro (⟨_, _, phased, behind, rfl⟩ | rfl)
    · obtain ⟨phase, rfl⟩ := phaseSpell.1 phased
      obtain ⟨runs, filled, each, rfl⟩ := runsSpell.1 behind
      exact ⟨some (phase, runs), by rintro _ ⟨⟩; exact ⟨filled, each⟩, rfl⟩
    · exact ⟨none, nofun, rfl⟩
  · rintro ⟨part, each, rfl⟩
    cases part with
    | none => exact .inr rfl
    | some p =>
      obtain ⟨filled, digits⟩ := each p rfl
      exact .inl ⟨_, _, phaseSpell.2 ⟨p.1, rfl⟩, runsSpell.2 ⟨p.2, filled, digits, rfl⟩, rfl⟩

theorem suffixSpell {mark text : Text} : (optional (seq (word mark) digits)).Spells text ↔
    ∃ part : Option Text, (∀ run ∈ part, Digits run) ∧ text = Number.suffixText mark part := by
  constructor
  · rintro (⟨_, run, marked, behind, rfl⟩ | rfl)
    · rw [wordSpells.1 marked]
      exact ⟨some run, by rintro _ ⟨⟩; exact digitsSpell.1 behind, rfl⟩
    · exact ⟨none, nofun, rfl⟩
  · rintro ⟨part, each, rfl⟩
    cases part with
    | none => exact .inr rfl
    | some run => exact .inl ⟨mark, run, wordSpells.2 rfl, digitsSpell.2 (each run rfl), rfl⟩

theorem releaseSpell {text : Text} : (seq digits (seq (one (· == '.')) (seq digits furtherRuns))).Spells text ↔
    ∃ runs : List Text, 2 ≤ runs.length ∧ (∀ run ∈ runs, Digits run) ∧ text = Number.runsText runs := by
  have more (run next : Text) (others : List Text) :
      Number.runsText (run :: next :: others) = run ++ (['.'] ++ Number.runsText (next :: others)) :=
    List.append_assoc _ _ _
  constructor
  · rintro ⟨run, _, first, ⟨_, _, ⟨c, dot, rfl⟩, behind, rfl⟩, rfl⟩
    obtain ⟨runs, filled, each, rfl⟩ := runsSpell.1 behind
    obtain ⟨next, others, rfl⟩ := List.exists_cons_of_ne_nil filled
    rw [eq_of_beq dot, ← more]
    exact ⟨run :: next :: others, by simp, List.forall_mem_cons.2 ⟨digitsSpell.1 first, each⟩, rfl⟩
  · rintro ⟨runs, several, each, rfl⟩
    obtain ⟨run, next, others, rfl⟩ : ∃ run next others, runs = run :: next :: others := by
      match runs, several with
      | run :: next :: others, _ => exact ⟨run, next, others, rfl⟩
    obtain ⟨first, behind⟩ := List.forall_mem_cons.1 each
    rw [more]
    exact ⟨run, _, digitsSpell.2 first, ⟨['.'], _, ⟨'.', rfl, rfl⟩,
      runsSpell.2 ⟨next :: others, List.cons_ne_nil _ _, behind, rfl⟩, rfl⟩, rfl⟩

theorem numberSpell {text : Text} :
    numberPattern.Spells text ↔ ∃ n : Number, n.Grammatical ∧ n.text = text := by
  have whole (n : Number) : n.text = Number.runsText n.release ++ (Number.phaseText n.preRelease ++
      (Number.suffixText ".post".toList n.post ++ Number.suffixText ".dev".toList n.dev)) := by
    simp [Number.text, Number.phaseText, Number.suffixText, Number.postWord, Number.devWord]
  constructor
  · rintro ⟨_, _, front, ⟨_, _, phased, ⟨_, _, marked, last, rfl⟩, rfl⟩, rfl⟩
    obtain ⟨release, several, runs, rfl⟩ := releaseSpell.1 front
    obtain ⟨preRelease, each, rfl⟩ := preReleaseSpell.1 phased
    obtain ⟨post, posts, rfl⟩ := suffixSpell.1 marked
    obtain ⟨dev, devs, rfl⟩ := suffixSpell.1 last
    exact ⟨⟨release, preRelease, post, dev⟩, ⟨⟨several, runs, fun p member => (each p member).2, posts, devs⟩,
      fun p member => (each p member).1⟩, whole _⟩
  · rintro ⟨n, grammatical, rfl⟩
    have each : ∀ p ∈ n.preRelease, p.2 ≠ [] ∧ ∀ run ∈ p.2, Digits run := fun p member =>
      ⟨grammatical.phased p member, grammatical.preRelease p member⟩
    rw [whole]
    exact ⟨_, _, releaseSpell.2 ⟨n.release, grammatical.several, grammatical.release, rfl⟩,
      ⟨_, _, preReleaseSpell.2 ⟨n.preRelease, each, rfl⟩,
        ⟨_, _, suffixSpell.2 ⟨n.post, grammatical.post, rfl⟩, suffixSpell.2 ⟨n.dev, grammatical.dev, rfl⟩, rfl⟩,
        rfl⟩, rfl⟩

theorem numberMatched (text : Text) : isVersion text = (groups? numberPattern (trim text)).isSome := by
  rw [Bool.eq_iff_iff, groupsSpell, numberSpell, isVersion, Option.isSome_iff_exists]
  exact exists_congr fun n => Number.readIff

/-- A predicate is what the patterns make of its text: a name and a rest, parentheses around the rest or
none, and constraints in it. -/
theorem ofTextMatched (text : Text) : ofText text =
    match groups? namePattern (trim text) with
    | some [name, rest] =>
      (Constraint.listOfText (((groups? parenthesized (trim rest)).bind List.head?).getD (trim rest))).map
        fun constraints => ⟨trim name, constraints⟩
    | _ => .error (.missingName (trim text)) := by
  rw [nameMatched (trimHead text)]
  unfold ofText
  by_cases named : (trim text).head?.any isWord = true ∧ '\n' ∉ (splitName (trim text)).2
  · have line : '\n' ∉ trim (splitName (trim text)).2 := fun member =>
      named.2 ((trimSublist _).mem member)
    simp only [named, and_self, if_true, not_false_eq_true, parenthesesMatched line]
  · simp only [named, if_false]

/-- A constraint is read behind the longest relation whose pattern fits, or as a version alone. -/
theorem constraintOfTextMatched (text : Text) : Constraint.ofText text =
    let (relation, version) := match groups? constraintPattern text with
      | some [sign, version] => ((Relation.all.find? fun r => r.spelling = sign).getD .equal, version)
      | _ => (.equal, trim text)
    (Number.ofText? version).elim (.error (.irrational version)) fun number => .ok ⟨relation, number⟩ := by
  rw [constraintMatched]
  unfold Constraint.ofText
  cases cut : Constraint.split? (trim text) with
  | none =>
    simp only [cut, Option.map_none, Option.getD_none]
    cases Number.ofText? (trim text) <;> rfl
  | some parts =>
    obtain ⟨relation, version⟩ := parts
    have found : (Relation.all.find? fun r => r.spelling = relation.spelling) = some relation := by
      cases relation <;> decide
    simp only [cut, Option.map_some, Option.getD_some, found]
    cases Number.ofText? version <;> rfl

end PkgInfo.Predicate
