import PkgInfo.Proofs.Predicate.Name

/-! Constraints behind a name, in parentheses and without. In parentheses they are read as they stand.
Without, a name that has no dot goes on over blanks and digits: when the first constraint is a bare
number, the name takes it in and that constraint is lost. -/
namespace PkgInfo.Predicate
open Text Value

def opening (list : Text) : Text := list.takeWhile (· ≠ ',')

def remainder (list : Text) : Text := list.dropWhile (· ≠ ',')

theorem listParts (list : Text) : opening list ++ remainder list = list :=
  List.takeWhile_append_dropWhile

theorem openingFree (list : Text) : ',' ∉ opening list := fun comma => by
  have other := List.mem_takeWhile_imp comma
  simp at other

theorem remainderHead (list : Text) : ∀ c ∈ (remainder list).head?, c = ',' := by
  intro c first
  have stops := List.head?_dropWhile_not (fun d => decide (d ≠ ',')) list
  rw [← remainder, Option.mem_def.1 first] at stops
  simpa using stops

theorem remainderTrim (list : Text) : ∀ c ∈ (trim (remainder list)).head?, c = ',' := by
  cases rest : remainder list with
  | nil => nofun
  | cons c more =>
    obtain rfl : c = ',' := remainderHead list c (by rw [rest]; rfl)
    obtain ⟨kept, same, _⟩ := trimCons (by decide : isBlank ',' = false) more
    rw [same]
    rintro c ⟨⟩
    rfl

theorem listOpened {list : Text} (some : trim (opening list) ≠ []) :
    splitCommas list = trim (opening list) :: splitCommas (remainder list) := by
  have first : splitCommas (opening list) = [trim (opening list)] := by
    simp [splitCommas, piecesFree (openingFree list), tidy, some]
  conv_lhs => rw [← listParts list, splitCommasApart (openingFree list) (remainderHead list), first]
  rfl

variable {list : Text} {constraints : List Constraint}

theorem openingRead (read : Constraint.listOfText list = .ok constraints)
    (some : trim (opening list) ≠ []) :
    ∃ c more, constraints = c :: more ∧ Constraint.ofText (opening list) = .ok c ∧
      Constraint.listOfText (remainder list) = .ok more := by
  rw [Constraint.listItems, listOpened some, List.mapM_cons, boundOk] at read
  obtain ⟨c, first, onward⟩ := read
  obtain ⟨more, later, whole⟩ := boundOk.1 onward
  rw [Constraint.ofTextTrim] at first
  rw [← Constraint.listItems] at later
  exact ⟨c, more, (Except.ok.inj whole).symm, first, later⟩

theorem listHead (read : Constraint.listOfText list = .ok constraints) :
    ∀ c ∈ (trim list).head?, c ∈ ',' :: Constraint.signs ∨
      isVersion (opening list) = true ∧ isDecimal c = true := by
  intro c head
  by_cases nothing : trim (opening list) = []
  · rw [← listParts list, trimFront (trimNothing nothing)] at head
    exact .inl (List.mem_cons.2 (.inl (remainderTrim list c head)))
  · obtain ⟨constraint, _, _, first, _⟩ := openingRead read nothing
    rw [← listParts list, trimAppendHead nothing] at head
    rcases Constraint.readStarts first with ⟨d, start, sign⟩ | found
    · obtain rfl : c = d := Option.mem_unique head start
      exact .inl (List.mem_cons_of_mem _ sign)
    · obtain ⟨formed, same⟩ := Number.readFormed found
      obtain ⟨run, behind, digits, whole⟩ := Number.formedPoint formed
      obtain ⟨d, more, rfl⟩ := List.exists_cons_of_ne_nil digits.some
      rw [← same, whole] at head
      obtain rfl : d = c := Option.some.inj head
      exact .inr ⟨by simp [isVersion, found], digits.each d List.mem_cons_self⟩

theorem listUnwrapped (read : Constraint.listOfText list = .ok constraints) :
    Constraint.listOfText (withoutParentheses (trim list)) = .ok constraints := by
  have plain : ∀ c ∈ (trim list).head?, c ≠ '(' := by
    rintro c head rfl
    rcases listHead read '(' head with sign | decimal
    · exact absurd sign (by decide)
    · exact absurd decimal.2 (by decide)
  rw [parenthesesNone plain, Constraint.listItems, splitCommasTrim, ← Constraint.listItems, read]

theorem remainderEnds (list : Text) : EndsName (trim (remainder list)) := by
  intro c head
  rw [remainderTrim list c head]
  decide +kernel

theorem listEnds (read : Constraint.listOfText list = .ok constraints)
    (unbare : isVersion (opening list) = false) : EndsName (trim list) := by
  intro c head
  have ends : ∀ d ∈ ',' :: Constraint.signs, isNameChar d = false ∧ d ≠ '.' :=
    List.all_iff_forall_prop.1 (by decide +kernel)
  rcases listHead read c head with sign | bare
  · exact ends c sign
  · rw [unbare] at bare
    exact absurd bare.1 (by decide)

section
variable {name : Text}

theorem fullDotless (full : FullName name) (dotless : '.' ∉ name) :
    name.head?.any isWord = true ∧ ∀ c ∈ name, isNameChar c = true := by
  obtain @⟨front, tail, starts, spread, dots, _⟩ := full
  cases tail with
  | nil =>
    rw [List.append_nil]
    exact ⟨starts, spread⟩
  | cons c more => exact absurd (by simp [dots c rfl]) dotless

theorem readUnwrapped (full : FullName name) (solid : trim name = name) (line : '\n' ∉ list)
    (read : Constraint.listOfText list = .ok constraints)
    (apart : isVersion (opening list) = false ∨ '.' ∈ name) :
    ofText (name ++ ' ' :: list) = .ok ⟨name, constraints⟩ := by
  have ends : EndsName (trim list) ∨ '.' ∈ name ∧ [' '] ≠ [] :=
    apart.imp (listEnds read) fun dot => ⟨dot, List.cons_ne_nil _ _⟩
  have space : ∀ c ∈ [' '], isBlank c = true := List.all_eq_true.1 (by decide)
  have whole := readSpaced full solid space (by simpa using line) ends
  rw [listUnwrapped read, List.append_assoc, List.singleton_append] at whole
  exact whole

-- The first digits of the number go on with the name, and its rest hangs on the point behind them.
theorem swallowedFull (full : FullName name) (dotless : '.' ∉ name) {gap run behind : Text}
    (blank : ∀ c ∈ gap, isBlank c = true) (digits : Digits run)
    (dotted : ∀ c ∈ behind, isDottedChar c = true) :
    FullName (name ++ gap ++ run ++ '.' :: behind) ∧
      trim (name ++ gap ++ run ++ '.' :: behind) = name ++ gap ++ run ++ '.' :: behind := by
  obtain ⟨starts, spread⟩ := fullDotless full dotless
  have first : (name ++ gap ++ run).head?.any isWord = true := by
    rw [List.append_assoc]
    exact fullStarts full _
  have each : ∀ c ∈ name ++ gap ++ run, isNameChar c = true := by
    simp only [List.forall_mem_append]
    refine ⟨⟨spread, fun c member => ?_⟩, fun c member => ?_⟩
    · simp [isNameChar, blank c member]
    · exact wordName (by simp [isWord, digits.each c member])
  have tail : ∀ c ∈ '.' :: behind, isDottedChar c = true :=
    List.forall_mem_cons.2 ⟨by decide +kernel, dotted⟩
  exact ⟨.matched first each (by rintro c ⟨⟩; rfl) tail,
    trimDotted first (List.cons_ne_nil '.' behind) tail⟩

theorem readSwallowed (full : FullName name) (dotless : '.' ∉ name) (line : '\n' ∉ list)
    (read : Constraint.listOfText list = .ok constraints) (bare : isVersion (opening list) = true) :
    ofText (name ++ ' ' :: list) = .ok ⟨trim (name ++ ' ' :: opening list), constraints.tail⟩ := by
  obtain ⟨number, found⟩ := Option.isSome_iff_exists.1 bare
  obtain ⟨formed, same⟩ := Number.readFormed found
  obtain ⟨run, behind, digits, point⟩ := Number.formedPoint formed
  have version : trim (opening list) = run ++ '.' :: behind := by rw [← same, point]
  have dotted : ∀ c ∈ behind, isDottedChar c = true := fun c member =>
    Number.formedDotted formed c (by simp [point, member])
  obtain ⟨before, after, blankBefore, blankAfter, whole⟩ := trimParts (opening list)
  have blank : ∀ c ∈ ' ' :: before, isBlank c = true :=
    List.forall_mem_cons.2 ⟨by decide, blankBefore⟩
  obtain ⟨taken, solid⟩ := swallowedFull full dotless blank digits dotted
  have shown : name ++ ' ' :: opening list =
      name ++ (' ' :: before) ++ run ++ '.' :: behind ++ after := by
    rw [whole, version]
    simp
  have parts : name ++ ' ' :: list =
      name ++ (' ' :: before) ++ run ++ '.' :: behind ++ after ++ remainder list := by
    rw [← shown, List.append_assoc, List.cons_append, listParts]
  have fresh : '\n' ∉ after ++ remainder list := by
    rw [← listParts list, whole] at line
    simp only [List.mem_append, not_or] at line ⊢
    exact ⟨line.1.2, line.2⟩
  obtain ⟨c, more, rfl, _, later⟩ := openingRead read (by simp [version])
  rw [parts, readSpaced taken solid blankAfter fresh (.inl (remainderEnds list)), listUnwrapped later,
    shown, trimBehind blankAfter, solid]
  rfl

/-- In parentheses each list that is read comes with the name, a bare number standing for equality.
Without them it does so too, unless the name has no dot and a bare number opens the list: then the
name ends behind that number, which is no constraint any more. -/
theorem formsRead (full : FullName name) (made : ∀ c ∈ name, isWord c = true ∨ c = '-' ∨ c = '.')
    (line : '\n' ∉ list) (valid : isVersionList list = true) :
    ∃ constraints, Constraint.listOfText list = .ok constraints ∧
      List.Forall₂ (fun item c => ∀ number, Number.ofText? item = some number → c = ⟨.equal, number⟩)
        (splitCommas list) constraints ∧
      ofText (name ++ ' ' :: '(' :: list ++ [')']) = .ok ⟨name, constraints⟩ ∧
      ofText (name ++ ' ' :: list) =
        if '.' ∉ name ∧ isVersion (opening list) = true then
          .ok ⟨trim (name ++ ' ' :: opening list), constraints.tail⟩
        else .ok ⟨name, constraints⟩ := by
  obtain ⟨constraints, read⟩ : ∃ constraints, Constraint.listOfText list = .ok constraints := by
    unfold isVersionList at valid
    split at valid
    · next constraints read => exact ⟨constraints, read⟩
    · contradiction
  have solid : trim name = name := trimSolid fun c member => by
    rcases made c member with word | rfl | rfl
    · exact wordSolid word
    · decide
    · decide
  refine ⟨constraints, read, ?_, ?_, ?_⟩
  · have items := eachRead.1 (Constraint.listItems list ▸ read)
    refine items.imp fun item c same number found => ?_
    rw [Constraint.bareRead found] at same
    exact (Except.ok.inj same).symm
  · have parts : name ++ ' ' :: '(' :: list ++ [')'] = name ++ [' '] ++ ('(' :: list ++ [')']) := by
      simp
    rw [parts, readParenthesized full solid line, read]
    rfl
  · split
    · next swallowed => exact readSwallowed full swallowed.1 line read swallowed.2
    · next kept =>
      refine readUnwrapped full solid line read ?_
      by_cases dot : '.' ∈ name
      · exact .inr dot
      · exact .inl (Bool.eq_false_iff.2 fun bare => kept ⟨dot, bare⟩)

end

def plainNumber (major minor : Char) : Number := ⟨[[major], [minor]], none, none, none⟩

theorem formsReadDotted :
    let name := "z-ope.x".toList
    let list := "1.5 ,<2.0".toList
    let p : Predicate := ⟨name, [⟨.equal, plainNumber '1' '5'⟩, ⟨.less, plainNumber '2' '0'⟩]⟩
    FullName name ∧ (∀ c ∈ name, isWord c = true ∨ c = '-' ∨ c = '.') ∧ '\n' ∉ list ∧
    isVersionList list = true ∧ ofText "z-ope.x (1.5 ,<2.0)".toList = .ok p ∧
    ofText "z-ope.x 1.5 ,<2.0".toList = .ok p := by
  intro name list p
  have full : FullName name := by decide +kernel
  have made : ∀ c ∈ name, isWord c = true ∨ c = '-' ∨ c = '.' :=
    List.all_iff_forall_prop.1 (by decide +kernel)
  have line : '\n' ∉ list := by decide
  have valid : isVersionList list = true := by decide +kernel
  obtain ⟨constraints, read, _, wrapped, plain⟩ := formsRead full made line valid
  have these : Constraint.listOfText list = .ok p.constraints := by decide +kernel
  obtain rfl := Except.ok.inj (read.symm.trans these)
  rw [if_neg (by decide +kernel)] at plain
  exact ⟨full, made, line, valid, wrapped, plain⟩

theorem bareNumberSwallowed :
    ¬ ∀ name list : Text, FullName name → (∀ c ∈ name, isWord c = true ∨ c = '-' ∨ c = '.') →
      list ≠ [] → '\n' ∉ list → isVersionList list = true →
      ∃ constraints, ofText (name ++ ' ' :: list) = .ok ⟨name, constraints⟩ ∧
        ofText (name ++ ' ' :: '(' :: list ++ [')']) = .ok ⟨name, constraints⟩ := by
  intro same
  obtain ⟨constraints, plain, _⟩ := same "foo".toList "1.0".toList (by decide +kernel)
    (List.all_iff_forall_prop.1 (by decide +kernel)) (by decide) (by decide) (by decide +kernel)
  have swallowed : ofText ("foo".toList ++ ' ' :: "1.0".toList) = .ok ⟨"foo 1.0".toList, []⟩ := by
    decide +kernel
  rw [swallowed, Except.ok.injEq, Predicate.mk.injEq] at plain
  exact absurd plain.1 (by decide)

end PkgInfo.Predicate
