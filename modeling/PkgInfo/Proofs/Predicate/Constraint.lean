import Mathlib.Data.List.Forall2
import PkgInfo.Proofs.Predicate.Number
import PkgInfo.Proofs.Value.Elements

/-! Constraints and their written form. A relation in front of a number is read as that relation, a list
of constraints is read item by item as lists with commas are, and each constraint that was read is read
again from its written form. -/
namespace PkgInfo.Predicate
open Text Value

theorem eachRead {ε α β : Type} {f : α → Except ε β} {items : List α} {values : List β} :
    items.mapM f = .ok values ↔ List.Forall₂ (fun item value => f item = .ok value) items values := by
  induction items generalizing values with
  | nil =>
    rw [List.mapM_nil, List.forall₂_nil_left_iff]
    exact ⟨fun same => (Except.ok.inj same).symm, fun same => by rw [same]; rfl⟩
  | cons item rest ih =>
    rw [List.mapM_cons, boundOk, List.forall₂_cons_left_iff]
    constructor
    · rintro ⟨value, read, onward⟩
      obtain ⟨others, later, whole⟩ := boundOk.1 onward
      exact ⟨value, others, read, ih.1 later, (Except.ok.inj whole).symm⟩
    · rintro ⟨value, others, read, later, rfl⟩
      exact ⟨value, read, boundOk.2 ⟨others, ih.2 later, rfl⟩⟩

theorem eachRefused {ε α β : Type} {f : α → Except ε β} {items : List α} {e : ε} :
    items.mapM f = .error e ↔ ∃ before item after, items = before ++ item :: after ∧
      (∀ i ∈ before, ∃ value, f i = .ok value) ∧ f item = .error e := by
  induction items with
  | nil =>
    have fine : ([] : List α).mapM f = .ok [] := rfl
    simp [fine]
  | cons first rest ih =>
    rw [List.mapM_cons, boundError]
    constructor
    · rintro (refused | ⟨value, read, onward⟩)
      · exact ⟨[], first, rest, rfl, nofun, refused⟩
      · rcases boundError.1 onward with later | ⟨others, _, fine⟩
        · obtain ⟨before, item, after, rfl, each, refused⟩ := ih.1 later
          exact ⟨first :: before, item, after, rfl, List.forall_mem_cons.2 ⟨⟨value, read⟩, each⟩, refused⟩
        · cases fine
    · rintro ⟨before, item, after, whole, each, refused⟩
      cases before with
      | nil =>
        cases whole
        exact .inl refused
      | cons head more =>
        cases whole
        obtain ⟨⟨value, read⟩, tail⟩ := List.forall_mem_cons.1 each
        exact .inr ⟨value, read, boundError.2 (.inl (ih.2 ⟨more, item, after, rfl, tail, refused⟩))⟩

namespace Constraint

structure Word (text : Text) : Prop where
  some : text ≠ []
  solid : ∀ c ∈ text, isBlank c = false ∧ c ≠ ','

theorem wordDotted {text : Text} (some : text ≠ []) (dotted : ∀ c ∈ text, isDottedChar c = true) :
    Word text := by
  refine ⟨some, fun c member => ⟨dottedSolid (dotted c member), ?_⟩⟩
  rintro rfl
  exact absurd (dotted ',' member) (by decide +kernel)

theorem operandIff {behind word : Text} : operand? behind = .some word ↔
    Word word ∧ ∃ gap, (∀ c ∈ gap, isBlank c = true) ∧ behind = gap ++ word := by
  simp only [operand?]
  constructor
  · intro found
    split at found
    · next plain =>
      obtain rfl := Option.some.inj found
      obtain ⟨some, each⟩ := plain
      have solid : ∀ c ∈ trimStart behind, isBlank c = false ∧ c ≠ ',' := by simpa using each
      exact ⟨⟨some, solid⟩, startSplit behind⟩
    · contradiction
  · rintro ⟨⟨some, solid⟩, gap, blank, rfl⟩
    have starts : trimStart (gap ++ word) = word := by
      obtain ⟨c, rest, rfl⟩ := List.exists_cons_of_ne_nil some
      rw [trimStart, List.dropWhile_append_of_pos blank]
      exact startSolid (solid c List.mem_cons_self).1 rest
    have plain : (word.all fun c => !isBlank c && c != ',') = true := by simpa using solid
    simp only [starts, some, plain, ne_eq, not_false_eq_true, and_self, if_true]

theorem splitSpelled (r : Relation) {gap text : Text} (blank : ∀ c ∈ gap, isBlank c = true)
    (some : text ≠ []) (dotted : ∀ c ∈ text, isDottedChar c = true) :
    split? (r.spelling ++ (gap ++ text)) = .some (r, text) := by
  have whole := operandIff.2 ⟨wordDotted some dotted, gap, blank, rfl⟩
  have other : ∀ c ∈ gap ++ text, c ≠ '=' := by
    rintro c member rfl
    rcases List.mem_append.1 member with inside | inside
    · exact absurd (blank '=' inside) (by decide)
    · exact absurd (dotted '=' inside) (by decide +kernel)
  obtain ⟨c, rest, same⟩ := List.exists_cons_of_ne_nil (List.append_ne_nil_of_right_ne_nil gap some)
  rw [same] at whole other ⊢
  have apart := other c List.mem_cons_self
  cases r <;>
    simp [split?, Relation.all, Relation.spelling, stripLead?, List.findSome?, whole, Ne.symm apart]

def signs : List Char := ['<', '>', '!', '=']

theorem splitNothing {c : Char} {rest : Text} (other : c ∉ signs) : split? (c :: rest) = none := by
  simp only [signs, List.mem_cons, List.not_mem_nil, or_false, not_or] at other
  obtain ⟨less, greater, bang, equals⟩ := other
  simp [split?, Relation.all, Relation.spelling, stripLead?, List.findSome?, Ne.symm less,
    Ne.symm greater, Ne.symm bang, Ne.symm equals]

theorem splitStarts {text word : Text} {r : Relation} (cut : split? text = some (r, word)) :
    ∃ c ∈ text.head?, c ∈ signs := by
  obtain ⟨s, _, found⟩ := List.exists_of_findSome?_eq_some cut
  obtain ⟨behind, leads, _⟩ := Option.bind_eq_some_iff.1 found
  rw [stripLeadSome.1 leads]
  cases s <;> simp [Relation.spelling, signs]

theorem ofTextTrim (text : Text) : ofText (trim text) = ofText text := by
  unfold ofText
  rw [trimTwice]

theorem ofTextRead {text : Text} {c : Constraint} (read : ofText text = .ok c) :
    ∃ version, (split? (trim text)).getD (.equal, trim text) = (c.relation, version) ∧
      Number.ofText? version = some c.number := by
  unfold ofText at read
  cases cut : (split? (trim text)).getD (.equal, trim text) with | mk relation version =>
  simp only [cut] at read
  split at read
  · next number found => cases read; exact ⟨version, rfl, found⟩
  · contradiction

theorem readNormal {text : Text} {c : Constraint} (read : ofText text = .ok c) : c.number.Normal := by
  obtain ⟨version, _, found⟩ := ofTextRead read
  exact Number.readNormal found

theorem bareRead {text : Text} {number : Number} (read : Number.ofText? text = some number) :
    ofText text = .ok ⟨.equal, number⟩ := by
  obtain ⟨formed, same⟩ := Number.readFormed read
  obtain ⟨run, behind, digits, whole⟩ := Number.formedPoint formed
  obtain ⟨c, more, rfl⟩ := List.exists_cons_of_ne_nil digits.some
  have decimal : isDecimal c = true := digits.each c List.mem_cons_self
  have other : c ∉ signs := fun sign => by
    have none : ∀ d ∈ signs, isDecimal d = false := List.all_iff_forall_prop.1 (by decide)
    rw [none c sign] at decimal
    contradiction
  have none : split? (trim text) = none := by
    rw [← same, whole]
    exact splitNothing other
  unfold ofText
  simp only [none, Option.getD_none, Number.ofTextTrim, read]

theorem readStarts {text : Text} {c : Constraint} (read : ofText text = .ok c) :
    (∃ d ∈ (trim text).head?, d ∈ signs) ∨ Number.ofText? text = some c.number := by
  obtain ⟨version, cut, found⟩ := ofTextRead read
  cases same : split? (trim text) with
  | some parts => exact .inl (splitStarts same)
  | none =>
    rw [same, Option.getD_none, Prod.mk.injEq] at cut
    rw [← cut.2, Number.ofTextTrim] at found
    exact .inr found

theorem displaySolid {c : Constraint} (formed : c.number.Formed) :
    ∀ d ∈ c.display, isBlank d = false ∧ d ≠ ',' := by
  have dotted := Number.formedDotted formed
  refine List.forall_mem_append.2 ⟨?_, fun d member => ⟨dottedSolid (dotted d member), ?_⟩⟩
  · cases c.relation <;> exact List.all_iff_forall_prop.1 (by decide)
  · rintro rfl
    exact absurd (dotted ',' member) (by decide +kernel)

theorem displayElement {c : Constraint} (formed : c.number.Formed) : Element c.display := by
  have solid := displaySolid formed
  refine ⟨?_, trimSolid fun d member => (solid d member).1, fun comma => (solid ',' comma).2 rfl⟩
  cases relation : c.relation <;> simp [display, relation, Relation.spelling]

theorem displayRead {c : Constraint} (normal : c.number.Normal) : ofText c.display = .ok c := by
  have formed := (Number.readFormed normal).1
  obtain ⟨run, behind, _, whole⟩ := Number.formedPoint formed
  have some : c.number.text ≠ [] := by simp [whole]
  have cut : split? c.display = .some (c.relation, c.number.text) :=
    @splitSpelled c.relation [] c.number.text nofun some (Number.formedDotted formed)
  unfold ofText
  simp only [(displayElement formed).trimmed, cut, Option.getD_some]
  rw [normal]

theorem listItems (text : Text) : listOfText text = (splitCommas text).mapM ofText := by
  have trimmed : ∀ items : List Text, (items.map trim).mapM ofText = items.mapM ofText := by
    intro items
    induction items with
    | nil => rfl
    | cons item rest ih => rw [List.map_cons, List.mapM_cons, List.mapM_cons, ofTextTrim, ih]
  rw [listOfText, splitCommas, tidy, List.filter_map, trimmed]
  rfl

theorem listNormal {text : Text} {cs : List Constraint} (read : listOfText text = .ok cs) :
    ∀ c ∈ cs, c.number.Normal := by
  rw [listItems, eachRead] at read
  generalize splitCommas text = items at read
  induction read with
  | nil => nofun
  | cons item _ ih => exact List.forall_mem_cons.2 ⟨readNormal item, ih⟩

theorem listRead {cs : List Constraint} (normal : ∀ c ∈ cs, c.number.Normal) :
    listOfText (joined ", ".toList (cs.map display)) = .ok cs := by
  have elements : ∀ item ∈ cs.map display, Element item :=
    List.forall_mem_map.2 fun c member => displayElement (Number.readFormed (normal c member)).1
  rw [listItems, splitCommasSpread elements, eachRead, List.forall₂_map_left_iff, List.forall₂_same]
  exact fun c member => displayRead (normal c member)

end Constraint
end PkgInfo.Predicate
