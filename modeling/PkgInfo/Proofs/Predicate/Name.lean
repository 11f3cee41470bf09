import PkgInfo.Proofs.Predicate.Constraint

/-! Project names in front of constraints. The name is cut off as far as it goes, so a text that is a
name as a whole is cut off as that name wherever nothing behind it can go on with it. -/
namespace PkgInfo.Predicate
open Text Value

theorem startsWith {text : Text} (starts : text.head?.any isWord = true) :
    ∃ c rest, text = c :: rest ∧ isWord c = true := by
  cases text with
  | nil => contradiction
  | cons c rest => exact ⟨c, rest, rfl, starts⟩

inductive FullName : Text → Prop where
  | matched {front behind : Text} (starts : front.head?.any isWord = true)
      (spread : ∀ c ∈ front, isNameChar c = true) (dots : ∀ c ∈ behind.head?, c = '.')
      (dotted : ∀ c ∈ behind, isDottedChar c = true) : FullName (front ++ behind)

def EndsName (behind : Text) : Prop := ∀ c ∈ behind.head?, isNameChar c = false ∧ c ≠ '.'

theorem dotNoName : isNameChar '.' = false := by decide +kernel

theorem wordName {c : Char} (word : isWord c = true) : isNameChar c = true := by
  simp [isNameChar, word]

theorem blankNotDotted {c : Char} (blank : isBlank c = true) : isDottedChar c = false := by
  refine Bool.eq_false_iff.2 fun dotted => ?_
  rw [dottedSolid dotted] at blank
  contradiction

theorem dottedOnly {c : Char} (dotted : isDottedChar c = true) (noName : isNameChar c = false) :
    c = '.' := by
  rcases Bool.or_eq_true_iff.1 dotted with word | dot
  · rw [wordName word] at noName
    contradiction
  · exact eq_of_beq dot

theorem endNotDotted {c : Char} (noName : isNameChar c = false) (noDot : c ≠ '.') :
    isDottedChar c = false :=
  Bool.eq_false_iff.2 fun dotted => noDot (dottedOnly dotted noName)

theorem splitEnd {behind : Text} (ends : EndsName behind) : splitName behind = ([], behind) := by
  cases behind with
  | nil => rfl
  | cons c rest =>
    obtain ⟨noName, noDot⟩ := ends c rfl
    simp [splitName, noName, endNotDotted noName noDot]

theorem splitSpread {front : Text} (spread : ∀ c ∈ front, isNameChar c = true) (rest : Text) :
    splitName (front ++ rest) = (front ++ (splitName rest).1, (splitName rest).2) := by
  simp only [splitName, List.takeWhile_append_of_pos spread, List.dropWhile_append_of_pos spread,
    List.append_assoc]

theorem splitDot (behind : Text) : splitName ('.' :: behind) =
    (('.' :: behind).takeWhile isDottedChar, ('.' :: behind).dropWhile isDottedChar) := by
  have stops : ∀ c ∈ ('.' :: behind).head?, isNameChar c = false := by simp [dotNoName]
  obtain ⟨none, all⟩ := spanStops stops
  simp only [splitName, none, all, List.nil_append]

theorem splitDots {front behind : Text} (spread : ∀ c ∈ front, isNameChar c = true)
    (dots : ∀ c ∈ behind.head?, c = '.') (dotted : ∀ c ∈ behind, isDottedChar c = true)
    (some : behind ≠ []) {rest : Text} (ends : ∀ c ∈ rest.head?, isDottedChar c = false) :
    splitName (front ++ behind ++ rest) = (front ++ behind, rest) := by
  obtain ⟨c, more, rfl⟩ := List.exists_cons_of_ne_nil some
  obtain rfl : c = '.' := dots c rfl
  have cut : splitName ('.' :: more ++ rest) = ('.' :: more, rest) := by
    rw [List.cons_append, splitDot, ← List.cons_append, List.takeWhile_append_of_pos dotted,
      List.dropWhile_append_of_pos dotted, (spanStops ends).1, (spanStops ends).2, List.append_nil]
  rw [List.append_assoc, splitSpread spread, cut]

-- Blanks behind a name without a dot are cut off with it, behind one with a dot they are left.
theorem splitFull {name gap behind : Text} (full : FullName name)
    (blank : ∀ c ∈ gap, isBlank c = true) (apart : EndsName behind ∨ '.' ∈ name ∧ gap ≠ []) :
    ∃ taken left, gap = taken ++ left ∧
      splitName (name ++ gap ++ behind) = (name ++ taken, left ++ behind) := by
  obtain @⟨front, tail, starts, spread, dots, dotted⟩ := full
  cases tail with
  | nil =>
    have noDot : '.' ∉ front ++ [] := fun dot => by
      rw [List.append_nil] at dot
      exact absurd (spread '.' dot) (by rw [dotNoName]; decide)
    have ends : EndsName behind := apart.resolve_right fun dot => noDot dot.1
    have names : ∀ c ∈ gap, isNameChar c = true := fun c member => by
      simp [isNameChar, blank c member]
    refine ⟨gap, [], (List.append_nil gap).symm, ?_⟩
    rw [List.append_nil, List.append_assoc, splitSpread spread, splitSpread names, splitEnd ends,
      List.append_nil, List.nil_append]
  | cons c more =>
    refine ⟨[], gap, rfl, ?_⟩
    rw [List.append_assoc _ gap, List.append_nil]
    refine splitDots spread dots dotted (List.cons_ne_nil c more) fun d first => ?_
    cases gap with
    | nil =>
      have ends : EndsName behind := apart.resolve_right fun dot => dot.2 rfl
      exact endNotDotted (ends d first).1 (ends d first).2
    | cons b others =>
      obtain rfl : b = d := Option.some.inj first
      exact blankNotDotted (blank b List.mem_cons_self)

theorem fullStarts {name : Text} (full : FullName name) (rest : Text) :
    (name ++ rest).head?.any isWord = true := by
  obtain @⟨front, tail, starts, _, _, _⟩ := full
  obtain ⟨c, more, rfl, word⟩ := startsWith starts
  exact word

theorem cutFull {text : Text} (starts : text.head?.any isWord = true) :
    FullName (splitName text).1 := by
  obtain ⟨c, rest, rfl, word⟩ := startsWith starts
  refine .matched ?_ (fun _ member => List.mem_takeWhile_imp member) (fun d first => ?_)
    fun _ member => List.mem_takeWhile_imp member
  · rw [List.takeWhile_cons_of_pos (wordName word)]
    exact word
  · rw [List.head?_takeWhile, Option.mem_def, Option.filter_eq_some_iff] at first
    have noName := List.head?_dropWhile_not isNameChar (c :: rest)
    rw [first.1] at noName
    exact dottedOnly first.2 noName

theorem fullIff {name : Text} :
    FullName name ↔ name.head?.any isWord = true ∧ splitName name = (name, []) := by
  constructor
  · intro full
    obtain ⟨taken, left, none, cut⟩ := @splitFull name [] [] full nofun (.inl nofun)
    obtain ⟨rfl, rfl⟩ := List.nil_eq_append_iff.1 none
    have starts := fullStarts full []
    simp only [List.append_nil] at cut starts
    exact ⟨starts, cut⟩
  · rintro ⟨starts, cut⟩
    have full := cutFull starts
    rwa [cut] at full

instance (name : Text) : Decidable (FullName name) := decidable_of_iff _ fullIff.symm

theorem trimDotted {front tail : Text} (starts : front.head?.any isWord = true) (some : tail ≠ [])
    (dotted : ∀ c ∈ tail, isDottedChar c = true) : trim (front ++ tail) = front ++ tail := by
  obtain ⟨c, rest, rfl, word⟩ := startsWith starts
  refine trimWhole ?_ ?_
  · rintro d ⟨⟩
    exact wordSolid word
  · rw [List.getLast?_append_of_ne_nil _ some]
    exact fun d ends => dottedSolid (dotted d (List.mem_of_mem_getLast? ends))

-- Behind a name without a dot there may be blanks, and trimming takes no more than these.
theorem trimFull {name : Text} (full : FullName name) : FullName (trim name) := by
  obtain @⟨front, tail, starts, spread, dots, dotted⟩ := full
  cases tail with
  | nil =>
    obtain ⟨c, rest, rfl, word⟩ := startsWith starts
    obtain ⟨kept, same, taken⟩ := trimCons (wordSolid word) rest
    have front : c :: kept <+: c :: rest := List.cons_prefix_cons.2 ⟨rfl, taken⟩
    rw [List.append_nil, same, ← List.append_nil (c :: kept)]
    exact .matched word (fun d member => spread d (front.subset member)) nofun nofun
  | cons d more =>
    rw [trimDotted starts (List.cons_ne_nil d more) dotted]
    exact .matched starts spread dots dotted

theorem ofTextTrim (text : Text) : ofText (trim text) = ofText text := by
  simp only [ofText, trimTwice]

theorem readNamed {name gap core : Text} (full : FullName name) (solid : trim name = name)
    (blank : ∀ c ∈ gap, isBlank c = true) (trimmed : trim core = core) (some : core = [] → gap = [])
    (line : '\n' ∉ gap ++ core) (apart : EndsName core ∨ '.' ∈ name ∧ gap ≠ []) :
    ofText (name ++ gap ++ core) =
      (Constraint.listOfText (withoutParentheses core)).map fun read => ⟨name, read⟩ := by
  obtain ⟨taken, left, rfl, cut⟩ := splitFull full blank apart
  obtain ⟨blankTaken, blankLeft⟩ := List.forall_mem_append.1 blank
  have starts : (name ++ (taken ++ left) ++ core).head?.any isWord = true := by
    rw [List.append_assoc]
    exact fullStarts full _
  have whole : trim (name ++ (taken ++ left) ++ core) = name ++ (taken ++ left) ++ core := by
    refine trimWhole (fun c first => ?_) fun c last => ?_
    · rw [Option.mem_def.1 first] at starts
      exact wordSolid starts
    · cases core with
      | nil =>
        rw [some rfl, List.append_nil, List.append_nil, ← solid] at last
        exact trimLast name c last
      | cons d more =>
        rw [List.getLast?_append_of_ne_nil _ (List.cons_ne_nil d more), ← trimmed] at last
        exact trimLast (d :: more) c last
  have fresh : '\n' ∉ left ++ core := by
    rw [List.append_assoc, List.mem_append, not_or] at line
    exact line.2
  simp only [ofText, whole, cut, starts, fresh, not_false_eq_true, and_self, if_true,
    trimFront blankLeft, trimmed, trimBehind blankTaken, solid]

theorem ofTextBehind {blanks : Text} (blank : ∀ c ∈ blanks, isBlank c = true) (text : Text) :
    ofText (text ++ blanks) = ofText text := by
  rw [← ofTextTrim, trimBehind blank, ofTextTrim]

theorem readAlone {name : Text} (full : FullName name) (solid : trim name = name) :
    ofText name = .ok ⟨name, []⟩ := by
  have whole := @readNamed name [] [] full solid nofun rfl (fun _ => rfl) nofun (.inl nofun)
  rw [List.append_nil, List.append_nil] at whole
  exact whole

theorem readSpaced {name gap core : Text} (full : FullName name) (solid : trim name = name)
    (blank : ∀ c ∈ gap, isBlank c = true) (line : '\n' ∉ gap ++ core)
    (apart : EndsName (trim core) ∨ '.' ∈ name ∧ gap ≠ []) :
    ofText (name ++ gap ++ core) =
      (Constraint.listOfText (withoutParentheses (trim core))).map fun read => ⟨name, read⟩ := by
  by_cases nothing : trim core = []
  · have blanks : ∀ c ∈ gap ++ core, isBlank c = true :=
      List.forall_mem_append.2 ⟨blank, trimNothing nothing⟩
    rw [List.append_assoc, ofTextBehind blanks, nothing, readAlone full solid]
    rfl
  · obtain ⟨front, behind, before, after, whole⟩ := trimParts core
    have spread : ∀ c ∈ gap ++ front, isBlank c = true := List.forall_mem_append.2 ⟨blank, before⟩
    have fresh : '\n' ∉ (gap ++ front) ++ trim core := by
      rw [whole] at line
      simp only [List.mem_append, not_or] at line ⊢
      exact ⟨⟨line.1, line.2.1.1⟩, line.2.1.2⟩
    have apart' : EndsName (trim core) ∨ '.' ∈ name ∧ gap ++ front ≠ [] :=
      apart.imp_right fun dot => ⟨dot.1, List.append_ne_nil_of_left_ne_nil dot.2 front⟩
    have parts : name ++ gap ++ core = name ++ (gap ++ front) ++ trim core ++ behind := by
      conv_lhs => rw [whole]
      simp only [List.append_assoc]
    rw [parts, ofTextBehind after]
    exact readNamed full solid spread (trimTwice core) (fun none => absurd none nothing) fresh apart'

theorem parenthesesOff (inside : Text) : withoutParentheses ('(' :: inside ++ [')']) = inside := by
  simp [withoutParentheses]

theorem parenthesesNone {text : Text} (other : ∀ c ∈ text.head?, c ≠ '(') :
    withoutParentheses text = text := by
  unfold withoutParentheses
  split
  · next rest => exact absurd rfl (other '(' rfl)
  · rfl

theorem readParenthesized {name inside : Text} (full : FullName name) (solid : trim name = name)
    (line : '\n' ∉ inside) : ofText (name ++ [' '] ++ ('(' :: inside ++ [')'])) =
      (Constraint.listOfText inside).map fun read => ⟨name, read⟩ := by
  have tight : trim ('(' :: inside ++ [')']) = '(' :: inside ++ [')'] := by
    refine trimWhole ?_ ?_
    · rintro c ⟨⟩
      decide
    · rw [List.getLast?_concat]
      rintro c ⟨⟩
      decide
  have ends : EndsName ('(' :: inside ++ [')']) := by
    rintro c ⟨⟩
    decide +kernel
  rw [readNamed full solid (List.all_eq_true.1 (by decide)) tight nofun (by simpa using line)
    (.inl ends), parenthesesOff]

end PkgInfo.Predicate
