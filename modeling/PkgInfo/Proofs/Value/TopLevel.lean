import PkgInfo.Proofs.Value.Elements

/-! Lists of entries that may hold commas inside parentheses. The text is cut at the commas before which
every parenthesis is closed, and at no others, whichever way the parentheses are out of balance. -/
namespace PkgInfo.Value
open Text

def depth (front : Text) : Nat := front.foldl depthAfter 0

def Between (pieces : List Text) (front behind : Text) : Prop :=
  ∃ left right, left ≠ [] ∧ right ≠ [] ∧ pieces = left ++ right ∧
    joined [','] left = front ∧ joined [','] right = behind

structure CutWhere (Here : Text → Prop) (text : Text) (pieces : List Text) : Prop where
  some : pieces ≠ []
  whole : joined [','] pieces = text
  cuts : ∀ front behind, text = front ++ ',' :: behind → (Here front ↔ Between pieces front behind)

theorem betweenCons {first : Text} {rest : List Text} {front behind : Text} :
    Between (first :: rest) front behind ↔
      (rest ≠ [] ∧ front = first ∧ joined [','] rest = behind) ∨
        ∃ more, front = first ++ ',' :: more ∧ Between rest more behind := by
  constructor
  · rintro ⟨_ | ⟨piece, others⟩, right, some, after, same, rfl, rfl⟩
    · contradiction
    · cases same
      cases others with
      | nil => exact .inl ⟨after, rfl, rfl⟩
      | cons next more =>
        exact .inr ⟨_, by simp [joined], next :: more, right, by simp, after, rfl, rfl, rfl⟩
  · rintro (⟨some, rfl, rfl⟩ | ⟨_, rfl, left, right, before, after, rfl, rfl, rfl⟩)
    · exact ⟨[_], rest, by simp, some, rfl, rfl, rfl⟩
    · obtain ⟨next, more, rfl⟩ := List.exists_cons_of_ne_nil before
      exact ⟨first :: next :: more, right, by simp, after, rfl, by simp [joined], rfl⟩

theorem betweenExtended {c : Char} {first : Text} {others : List Text} {front behind : Text} :
    Between ((c :: first) :: others) (c :: front) behind ↔ Between (first :: others) front behind := by
  simp only [betweenCons, List.cons_append, List.cons.injEq, true_and]

theorem betweenBehind {tail : List Text} {front behind : Text} :
    Between ([] :: tail) (',' :: front) behind ↔ Between tail front behind := by
  simp [betweenCons]

theorem joinedBehind {tail : List Text} (some : tail ≠ []) :
    joined [','] ([] :: tail) = ',' :: joined [','] tail := by
  obtain ⟨first, others, rfl⟩ := List.exists_cons_of_ne_nil some
  rfl

section
variable {Here : Text → Prop} {c : Char} {rest : Text} {pieces : List Text}

theorem cutNil : CutWhere Here [] pieces ↔ pieces = [[]] := by
  constructor
  · rintro ⟨some, whole, _⟩
    obtain ⟨first, others, rfl⟩ := List.exists_cons_of_ne_nil some
    cases others with
    | nil => exact congrArg ([·]) whole
    | cons next more => simp [joined] at whole
  · rintro rfl
    exact ⟨by simp, rfl, by simp⟩

theorem cutAt (here : Here []) : CutWhere Here (',' :: rest) pieces ↔
    ∃ tail, pieces = [] :: tail ∧ CutWhere (fun front => Here (',' :: front)) rest tail := by
  constructor
  · rintro ⟨some, whole, cuts⟩
    obtain ⟨first, tail, rfl⟩ := List.exists_cons_of_ne_nil some
    rcases betweenCons.1 ((cuts [] rest rfl).1 here) with ⟨more, rfl, behind⟩ | ⟨_, same, _⟩
    · refine ⟨tail, rfl, more, behind, fun front behind same => ?_⟩
      rw [cuts (',' :: front) behind (by rw [same]; rfl), betweenBehind]
    · simp at same
  · rintro ⟨tail, rfl, some, whole, cuts⟩
    refine ⟨by simp, by rw [joinedBehind some, whole], fun front behind same => ?_⟩
    cases front with
    | nil =>
      cases same
      exact iff_of_true here (betweenCons.2 (.inl ⟨some, rfl, whole⟩))
    | cons d more =>
      obtain ⟨rfl, later⟩ := List.cons.inj same
      rw [betweenBehind]
      exact cuts more behind later

theorem cutPast (past : c = ',' → ¬ Here []) : CutWhere Here (c :: rest) pieces ↔
    ∃ first others, pieces = (c :: first) :: others ∧
      CutWhere (fun front => Here (c :: front)) rest (first :: others) := by
  constructor
  · rintro ⟨some, whole, cuts⟩
    obtain ⟨first, others, rfl⟩ := List.exists_cons_of_ne_nil some
    cases first with
    | nil =>
      cases others with
      | nil => simp [joined] at whole
      | cons next more =>
        rw [joinedBehind (by simp)] at whole
        cases whole
        exact absurd ((cuts [] _ rfl).2 (betweenCons.2 (.inl ⟨by simp, rfl, rfl⟩))) (past rfl)
    | cons d first =>
      rw [← extendFirst, joinedExtendFirst _ _ (by simp)] at whole
      cases whole
      refine ⟨first, others, rfl, by simp, rfl, fun front behind same => ?_⟩
      rw [cuts (c :: front) behind (by rw [same]; rfl), betweenExtended]
  · rintro ⟨first, others, rfl, some, whole, cuts⟩
    refine ⟨by simp, ?_, fun front behind same => ?_⟩
    · exact (joinedExtendFirst [','] c some).trans (congrArg (c :: ·) whole)
    cases front with
    | nil =>
      cases same
      refine iff_of_false (past rfl) fun between => ?_
      simp [betweenCons] at between
    | cons d more =>
      obtain ⟨rfl, later⟩ := List.cons.inj same
      rw [betweenExtended]
      exact cuts more behind later

end

theorem topLevelNonempty (start : Nat) (text : Text) : topLevelPieces start text ≠ [] := by
  cases text with
  | nil => simp [topLevelPieces]
  | cons c rest =>
    simp only [topLevelPieces]
    split
    · simp
    · exact extendFirstNonempty c _

theorem topLevelIff {start : Nat} {text : Text} {pieces : List Text} :
    CutWhere (fun front => front.foldl depthAfter start = 0) text pieces ↔
      pieces = topLevelPieces start text := by
  induction text generalizing start pieces with
  | nil => exact cutNil
  | cons c rest ih =>
    simp only [topLevelPieces]
    split
    · next top =>
      obtain ⟨rfl, rfl⟩ := top
      have here : (fun front : Text => front.foldl depthAfter 0 = 0) [] := rfl
      rw [cutAt here]
      simp only [List.foldl_cons, ih]
      simp [depthAfter]
    · next inside =>
      rw [cutPast fun comma top => inside ⟨comma, top⟩]
      simp only [List.foldl_cons, ih]
      obtain ⟨first, others, cut⟩ := List.exists_cons_of_ne_nil (topLevelNonempty (depthAfter start c) rest)
      simp [cut, extendFirst]

def Sealed (start : Nat) (piece : Text) : Prop :=
  ∀ front behind, piece = front ++ ',' :: behind → front.foldl depthAfter start ≠ 0

theorem sealedNil (start : Nat) : Sealed start [] := by simp [Sealed]

theorem sealedCons {start : Nat} {c : Char} {rest : Text} :
    Sealed start (c :: rest) ↔ ¬ (c = ',' ∧ start = 0) ∧ Sealed (depthAfter start c) rest := by
  constructor
  · intro whole
    refine ⟨fun ⟨comma, top⟩ => whole [] rest (by rw [comma]; rfl) top, fun front behind same => ?_⟩
    exact whole (c :: front) behind (by rw [same]; rfl)
  · rintro ⟨inside, tail⟩ (_ | ⟨d, more⟩) behind same
    · cases same
      exact fun top => inside ⟨rfl, top⟩
    · cases same
      exact tail more behind rfl

inductive Parted : List Text → Prop where
  | nil : Parted []
  | last {piece : Text} (inside : Sealed 0 piece) : Parted [piece]
  | cons {piece : Text} {others : List Text} (inside : Sealed 0 piece) (closed : depth piece = 0)
      (onward : Parted others) : Parted (piece :: others)

theorem partedSealed {pieces : List Text} (parted : Parted pieces) : ∀ piece ∈ pieces, Sealed 0 piece := by
  induction parted with
  | nil => nofun
  | last inside => simpa using inside
  | cons inside closed onward ih => exact List.forall_mem_cons.2 ⟨inside, ih⟩

theorem partedCons {piece : Text} {others : List Text} (inside : Sealed 0 piece)
    (closed : others = [] ∨ depth piece = 0) (onward : Parted others) : Parted (piece :: others) := by
  rcases closed with rfl | closed
  · exact .last inside
  · exact .cons inside closed onward

theorem topLevelParted (start : Nat) (text : Text) : ∃ first others,
    topLevelPieces start text = first :: others ∧ Sealed start first ∧
      (others = [] ∨ first.foldl depthAfter start = 0) ∧ Parted others := by
  induction text generalizing start with
  | nil => exact ⟨[], [], rfl, sealedNil start, .inl rfl, .nil⟩
  | cons c rest ih =>
    simp only [topLevelPieces]
    split
    · next top =>
      obtain ⟨first, others, cut, inside, closed, onward⟩ := ih 0
      exact ⟨[], _, rfl, sealedNil start, .inr top.2, cut ▸ partedCons inside closed onward⟩
    · next apart =>
      obtain ⟨first, others, cut, inside, closed, onward⟩ := ih (depthAfter start c)
      exact ⟨c :: first, others, by rw [cut, extendFirst], sealedCons.2 ⟨apart, inside⟩, closed, onward⟩

theorem depthBlanks {blanks : Text} (blank : ∀ c ∈ blanks, isBlank c = true) (start : Nat) :
    blanks.foldl depthAfter start = start := by
  induction blanks with
  | nil => rfl
  | cons c rest ih =>
    obtain ⟨head, tail⟩ := List.forall_mem_cons.1 blank
    have opens : c ≠ '(' := fun same => by rw [same] at head; contradiction
    have closes : c ≠ ')' := fun same => by rw [same] at head; contradiction
    rw [List.foldl_cons, depthAfter, if_neg opens, if_neg closes, ih tail]

theorem sealedTrim {piece : Text} (closed : Sealed 0 piece) : Sealed 0 (trim piece) := by
  obtain ⟨before, after, blank, _, whole⟩ := trimParts piece
  intro front behind same
  have inside := closed (before ++ front) (behind ++ after) (by rw [whole, same]; simp)
  rwa [List.foldl_append, depthBlanks blank] at inside

theorem depthTrim (piece : Text) : depth (trim piece) = depth piece := by
  obtain ⟨before, after, front, behind, whole⟩ := trimParts piece
  have parts : depth piece = depth (before ++ trim piece ++ after) := congrArg depth whole
  rw [parts, depth, depth, List.foldl_append, List.foldl_append, depthBlanks front, depthBlanks behind]

theorem partedTidy {pieces : List Text} (parted : Parted pieces) : Parted (tidy pieces) := by
  induction parted with
  | nil => exact .nil
  | @last piece inside =>
    by_cases nothing : trim piece = []
    · simpa [tidy, nothing] using Parted.nil
    · simpa [tidy, nothing] using Parted.last (sealedTrim inside)
  | @cons piece others inside closed onward ih =>
    rw [← List.singleton_append, tidyAppend]
    by_cases nothing : trim piece = []
    · simpa [tidy, nothing] using ih
    · have first : tidy [piece] = [trim piece] := by simp [tidy, nothing]
      rw [first]
      exact .cons (sealedTrim inside) ((depthTrim piece).trans closed) ih

theorem splitTopLevelParted (text : Text) : Parted (splitTopLevelCommas text) := by
  obtain ⟨first, others, same, inside, closed, onward⟩ := topLevelParted 0 text
  rw [splitTopLevelCommas, same]
  exact partedTidy (partedCons inside closed onward)

theorem splitTopLevelSealed (text : Text) : ∀ item ∈ splitTopLevelCommas text, Sealed 0 item :=
  partedSealed (splitTopLevelParted text)

theorem topLevelPlain {text : Text} (flat : '(' ∉ text) : topLevelPieces 0 text = pieces ',' text := by
  induction text with
  | nil => rfl
  | cons c rest ih =>
    simp only [List.mem_cons, not_or] at flat
    have closes : depthAfter 0 c = 0 := by simp [depthAfter, Ne.symm flat.1]
    simp only [topLevelPieces, pieces, closes, ih flat.2, and_true]

/-- A list of predicates is cut at exactly the commas with no parenthesis open before them, and its entries
are the trimmed pieces that are not empty. None of these has such a comma of its own, and without an
opening parenthesis they are those of any list written with commas. -/
theorem predicatesApart (text : Text) :
    (∃ pieces, CutWhere (fun front => depth front = 0) text pieces ∧
      (∀ others, CutWhere (fun front => depth front = 0) text others → others = pieces) ∧
      (Value.text text).coerce .predicateList = .list ((pieces.map trim).filter (· ≠ []))) ∧
    (∀ item ∈ ((Value.text text).coerce .predicateList).asList, ∀ front behind,
      item = front ++ ',' :: behind → depth front ≠ 0) ∧
    ('(' ∉ text → ∀ category ∈ [Field.Category.scalarList, Field.Category.elementList],
      (Value.text text).coerce .predicateList = (Value.text text).coerce category) := by
  refine ⟨⟨topLevelPieces 0 text, topLevelIff.2 rfl, fun others => topLevelIff.1, rfl⟩,
    splitTopLevelSealed text, fun flat category plain => ?_⟩
  have same : splitTopLevelCommas text = splitCommas text := by
    rw [splitTopLevelCommas, topLevelPlain flat, splitCommas]
  have split : (Value.text text).coerce category = .list (splitCommas text) := by
    simp only [List.mem_cons, List.not_mem_nil, or_false] at plain
    rcases plain with rfl | rfl <;> rfl
  rw [split, ← same]
  rfl

theorem predicatesApartUnbalanced :
    let text := "foo (>=1, <2), b), é,, baz (x(y, z), w".toList
    let item := "foo (>=1, <2)".toList
    (Value.text text).coerce .predicateList =
        .list [item, "b)".toList, "é".toList, "baz (x(y, z), w".toList] ∧
      item = "foo (>=1".toList ++ ',' :: " <2)".toList ∧ depth "foo (>=1".toList ≠ 0 ∧
      '(' ∉ "b), é".toList ∧ (Value.text "b), é".toList).coerce .predicateList =
        (Value.text "b), é".toList).coerce .elementList := by
  intro text item
  have listed : (Value.text text).coerce .predicateList =
      .list [item, "b)".toList, "é".toList, "baz (x(y, z), w".toList] := by decide +kernel
  have flat : '(' ∉ "b), é".toList := by decide
  have member : item ∈ ((Value.text text).coerce .predicateList).asList := by
    rw [listed]
    exact List.mem_cons_self
  obtain ⟨_, apart, _⟩ := predicatesApart text
  obtain ⟨_, _, plain⟩ := predicatesApart "b), é".toList
  exact ⟨listed, rfl, apart item member "foo (>=1".toList " <2)".toList rfl, flat,
    plain flat .elementList (by simp)⟩

end PkgInfo.Value
