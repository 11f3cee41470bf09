import PkgInfo.Proofs.Predicate.Item
import PkgInfo.Proofs.Predicate.Name

/-! The grammar of predicates. The name in front is the longest text of its form, so there is at most one
way to cut it off, and what is left has to stand on one line. The constraints are then the items of the
rest, less the parentheses around it, and the first item that is no constraint is what is refused. -/
namespace PkgInfo.Predicate
open Text

inductive ProjectName : Text → Prop where
  | groups {c : Char} {front : Text} {words : List Text} (starts : isWord c = true)
      (spread : ∀ d ∈ front, isWord d = true ∨ isBlank d = true ∨ d = '-')
      (dotted : ∀ word ∈ words, ∀ d ∈ word, isWord d = true) :
      ProjectName (c :: front ++ words.flatMap ('.' :: ·))

structure LongestName (text name rest : Text) : Prop where
  whole : text = name ++ rest
  formed : ProjectName name
  longest : ∀ other, ProjectName other → other <+: text → other.length ≤ name.length

inductive Unwrapped : Text → Text → Prop where
  | wrapped (inside : Text) : Unwrapped ('(' :: inside ++ [')']) inside
  | plain {text : Text} (apart : ∀ inside, text ≠ '(' :: inside ++ [')']) : Unwrapped text text

def listed (list : Text) : List Text := (pieces ',' list).filter fun item => trim item ≠ []

theorem nameCharIff {c : Char} :
    isNameChar c = true ↔ isWord c = true ∨ isBlank c = true ∨ c = '-' := by
  simp [isNameChar, or_assoc]

theorem dottedGroups {behind : Text} (dots : ∀ c ∈ behind.head?, c = '.')
    (dotted : ∀ c ∈ behind, isDottedChar c = true) :
    ∃ words : List Text, behind = words.flatMap ('.' :: ·) ∧ ∀ word ∈ words, ∀ d ∈ word, isWord d = true := by
  cases behind with
  | nil => exact ⟨[], rfl, nofun⟩
  | cons c more =>
    obtain rfl := dots c rfl
    have whole := joinedPieces '.' more
    obtain ⟨first, others, cut⟩ := List.exists_cons_of_ne_nil (piecesNonempty '.' more)
    have each : ∀ word ∈ pieces '.' more, ∀ d ∈ word, isWord d = true := by
      intro word member d inside
      have part : d ∈ joined ['.'] (pieces '.' more) := (infixJoined member).subset inside
      rw [whole] at part
      rcases Bool.or_eq_true_iff.1 (dotted d (List.mem_cons_of_mem _ part)) with word | dot
      · exact word
      · exact absurd inside (eq_of_beq dot ▸ markNotInPiece member)
    refine ⟨pieces '.' more, ?_, each⟩
    conv_lhs => rw [← whole, cut, joinedCons]
    rw [cut]
    rfl

theorem projectName {name : Text} : ProjectName name ↔ FullName name := by
  constructor
  · rintro @⟨c, front, words, starts, spread, dotted⟩
    refine .matched starts ?_ ?_ ?_
    · exact List.forall_mem_cons.2 ⟨wordName starts, fun d member => nameCharIff.2 (spread d member)⟩
    · cases words with
      | nil => nofun
      | cons word more =>
        rintro d ⟨⟩
        rfl
    · intro d member
      obtain ⟨word, inside, here⟩ := List.mem_flatMap.1 member
      rcases List.mem_cons.1 here with rfl | later
      · decide +kernel
      · simp [isDottedChar, dotted word inside d later]
  · rintro @⟨front, behind, starts, spread, dots, dotted⟩
    obtain ⟨c, more, rfl, word⟩ := startsWith starts
    obtain ⟨words, rfl, each⟩ := dottedGroups dots dotted
    exact .groups word (fun d member => nameCharIff.1 (spread d (List.mem_cons_of_mem c member))) each

theorem splitNameWhole (text : Text) : (splitName text).1 ++ (splitName text).2 = text := by
  simp only [splitName, List.append_assoc, List.takeWhile_append_dropWhile]

theorem fullPrefix {name : Text} (full : FullName name) (rest : Text) :
    name <+: (splitName (name ++ rest)).1 := by
  obtain @⟨front, behind, _, spread, dots, dotted⟩ := full
  rw [List.append_assoc, splitSpread spread]
  refine List.prefix_append_right_inj front |>.2 ?_
  cases behind with
  | nil => exact List.nil_prefix
  | cons c more =>
    obtain rfl := dots c rfl
    rw [List.cons_append, splitDot, ← List.cons_append, List.takeWhile_append_of_pos dotted]
    exact List.prefix_append _ _

theorem longestIff {text name rest : Text} : LongestName text name rest ↔
    text.head?.any isWord = true ∧ splitName text = (name, rest) := by
  constructor
  · intro ⟨whole, formed, longest⟩
    have starts : text.head?.any isWord = true := by
      rw [whole]
      exact fullStarts (projectName.1 formed) rest
    have inside : name <+: (splitName text).1 := by
      rw [whole]
      exact fullPrefix (projectName.1 formed) rest
    have front : (splitName text).1 <+: text := ⟨_, splitNameWhole text⟩
    have same := inside.eq_of_length_le (longest _ (projectName.2 (cutFull starts)) front)
    have behind := splitNameWhole text
    rw [← same] at behind
    conv_rhs at behind => rw [whole]
    exact ⟨starts, Prod.ext same.symm (List.append_cancel_left behind)⟩
  · intro ⟨starts, cut⟩
    have whole := splitNameWhole text
    have full := cutFull starts
    rw [cut] at whole full
    refine ⟨whole.symm, projectName.2 full, fun other formed front => ?_⟩
    obtain ⟨more, rfl⟩ := front
    have inside := fullPrefix (projectName.1 formed) more
    rw [cut] at inside
    exact inside.length_le

theorem unwrappedIff {text inside : Text} : Unwrapped text inside ↔ withoutParentheses text = inside := by
  constructor
  · intro unwrapped
    cases unwrapped with
    | wrapped => exact parenthesesOff inside
    | plain apart =>
      unfold withoutParentheses
      split
      · next rest =>
        split
        · next ends =>
          obtain ⟨front, rfl⟩ := List.getLast?_eq_some_iff.1 ends
          exact absurd rfl (apart front)
        · rfl
      · rfl
  · rintro rfl
    unfold withoutParentheses
    split
    · next rest =>
      split
      · next ends =>
        obtain ⟨front, rfl⟩ := List.getLast?_eq_some_iff.1 ends
        rw [List.dropLast_concat]
        exact .wrapped front
      · next other =>
        refine .plain fun inside same => other ?_
        obtain rfl : rest = inside ++ [')'] := (List.cons.inj same).2
        exact List.getLast?_concat
    · next other => exact .plain fun inside same => other _ same

theorem readNameless {text : Text} (nameless : (trim text).head?.any isWord = false) :
    ofText text = .error (.missingName (trim text)) := by
  simp [ofText, nameless]

section
variable {text name rest : Text}

theorem readBroken (cut : LongestName (trim text) name rest) (line : '\n' ∈ rest) :
    ofText text = .error (.missingName (trim text)) := by
  obtain ⟨starts, split⟩ := longestIff.1 cut
  simp [ofText, split, line]

theorem readCut (cut : LongestName (trim text) name rest) (line : '\n' ∉ rest) {inside : Text}
    (unwrapped : Unwrapped (trim rest) inside) :
    ofText text = ((listed inside).mapM Constraint.ofText).map fun constraints =>
      ⟨trim name, constraints⟩ := by
  obtain ⟨starts, split⟩ := longestIff.1 cut
  simp only [ofText, split, starts, line, not_false_eq_true, and_self, if_true,
    unwrappedIff.1 unwrapped]
  rfl

theorem itemsRead {items : List Text} {constraints : List Constraint} :
    items.mapM Constraint.ofText = .ok constraints ↔
      List.Forall₂ (fun item c => c.Spelled item) items constraints := by
  simp only [eachRead, Constraint.spelledIff]

theorem itemsAccepted {items : List Text} : (∃ constraints, items.mapM Constraint.ofText = .ok constraints) ↔
    ∀ item ∈ items, ∃ c : Constraint, c.Spelled item := by
  simp only [itemsRead]
  induction items with
  | nil => simp
  | cons item more ih =>
    simp only [List.forall₂_cons_left_iff, List.forall_mem_cons, ← ih]
    constructor
    · rintro ⟨_, c, others, spelled, each, rfl⟩
      exact ⟨⟨c, spelled⟩, others, each⟩
    · intro ⟨⟨c, spelled⟩, others, each⟩
      exact ⟨c :: others, c, others, spelled, each, rfl⟩

theorem itemsRefused {items : List Text} {fault : Fault} : items.mapM Constraint.ofText = .error fault ↔
    ∃ before item after, items = before ++ item :: after ∧
      (∀ i ∈ before, ∃ c : Constraint, c.Spelled i) ∧ (¬ ∃ c : Constraint, c.Spelled item) ∧
      ∃ word, Constraint.Blamed item word ∧ fault = .irrational word := by
  simp only [eachRefused, Constraint.spelledIff, Constraint.refusedIff]

end

theorem namelessIff {text seen : Text} : ofText text = .error (.missingName seen) ↔
    seen = trim text ∧ ((trim text).head?.any isWord = false ∨
      ∃ name rest, LongestName (trim text) name rest ∧ '\n' ∈ rest) := by
  constructor
  · intro refused
    cases starts : (trim text).head?.any isWord with
    | false =>
      rw [readNameless starts] at refused
      cases refused
      exact ⟨rfl, .inl rfl⟩
    | true =>
      have cut : LongestName (trim text) _ _ := longestIff.2 ⟨starts, rfl⟩
      by_cases line : '\n' ∈ (splitName (trim text)).2
      · rw [readBroken cut line] at refused
        cases refused
        exact ⟨rfl, .inr ⟨_, _, cut, line⟩⟩
      · rw [readCut cut line (unwrappedIff.2 rfl), mappedError, itemsRefused] at refused
        obtain ⟨_, _, _, _, _, _, _, _, other⟩ := refused
        contradiction
  · rintro ⟨rfl, nameless | ⟨name, rest, cut, line⟩⟩
    · exact readNameless nameless
    · exact readBroken cut line

/-- A text without a name of the right form in front of one line is refused as a whole. Any other is read
if and only if each item behind the name is a constraint, and refused with its first item that is none. -/
theorem predicateGrammar (text : Text) :
    let t := trim text
    (∀ seen, ofText text = .error (.missingName seen) ↔ seen = t ∧
      (t.head?.any isWord = false ∨ ∃ name rest, LongestName t name rest ∧ '\n' ∈ rest)) ∧
    (t.head?.any isWord = true → ∃ name rest, LongestName t name rest) ∧
    ∀ name rest inside, LongestName t name rest → '\n' ∉ rest → Unwrapped (trim rest) inside →
      (∀ p, ofText text = .ok p ↔ p.name = trim name ∧
        List.Forall₂ (fun item c => c.Spelled item) (listed inside) p.constraints) ∧
      ((∃ p, ofText text = .ok p) ↔ ∀ item ∈ listed inside, ∃ c : Constraint, c.Spelled item) ∧
      ∀ word, ofText text = .error (.irrational word) ↔
        ∃ before item after, listed inside = before ++ item :: after ∧
          (∀ i ∈ before, ∃ c : Constraint, c.Spelled i) ∧
          (¬ ∃ c : Constraint, c.Spelled item) ∧ Constraint.Blamed item word := by
  intro t
  refine ⟨fun _ => namelessIff, fun starts => ⟨_, _, longestIff.2 ⟨starts, rfl⟩⟩, ?_⟩
  intro name rest inside cut line unwrapped
  have read := readCut cut line unwrapped
  refine ⟨fun p => ?_, ?_, fun word => ?_⟩
  · rw [read, mappedOk]
    simp only [itemsRead]
    constructor
    · rintro ⟨constraints, each, rfl⟩
      exact ⟨rfl, each⟩
    · intro ⟨same, each⟩
      exact ⟨p.constraints, each, by rw [← same]⟩
  · rw [read, ← itemsAccepted]
    simp only [mappedOk]
    constructor
    · intro ⟨_, constraints, each, _⟩
      exact ⟨constraints, each⟩
    · intro ⟨constraints, each⟩
      exact ⟨_, constraints, each, rfl⟩
  · rw [read, mappedError, itemsRefused]
    simp

-- The second item is a relation alone, or a shorter one with a word behind it.
def crossed : Text := " Zope-x\n.v1.. ( <= 1.0 , <=,==2.0x)".toList

theorem predicateGrammarCrossed :
    LongestName (trim crossed) "Zope-x\n.v1..".toList " ( <= 1.0 , <=,==2.0x)".toList ∧
      Unwrapped "( <= 1.0 , <=,==2.0x)".toList " <= 1.0 , <=,==2.0x".toList ∧
      ofText crossed = .error (.irrational ['=']) ∧
      ∃ before item after, listed " <= 1.0 , <=,==2.0x".toList = before ++ item :: after ∧
        (∀ i ∈ before, ∃ c : Constraint, c.Spelled i) ∧
        (¬ ∃ c : Constraint, c.Spelled item) ∧ Constraint.Blamed item ['='] := by
  have cut : LongestName (trim crossed) "Zope-x\n.v1..".toList " ( <= 1.0 , <=,==2.0x)".toList :=
    longestIff.2 (by decide +kernel)
  have unwrapped : Unwrapped "( <= 1.0 , <=,==2.0x)".toList " <= 1.0 , <=,==2.0x".toList :=
    unwrappedIff.2 (by decide)
  have refused : ofText crossed = .error (.irrational ['=']) := by decide +kernel
  obtain ⟨_, _, behind⟩ := predicateGrammar crossed
  obtain ⟨_, _, blamed⟩ := behind _ _ _ cut (by decide) unwrapped
  exact ⟨cut, unwrapped, refused, (blamed ['=']).1 refused⟩

end PkgInfo.Predicate
