import PkgInfo.Proofs.Predicate.Constraint
import PkgInfo.Proofs.Predicate.Parts

/-! The grammar of constraints. An item is a constraint where a version stands in it, alone or behind a
relation, with blanks around both. An item that is none is refused with the word behind the longest
relation that has a word behind it, or as a whole where no relation has. -/
namespace PkgInfo.Predicate
open Text

namespace Relation

theorem memAll (r : Relation) : r ∈ all := by cases r <;> decide

theorem spellingInjective {r s : Relation} (same : r.spelling = s.spelling) : r = s := by
  revert same
  cases r <;> cases s <;> decide

theorem spellingEnds (r : Relation) : r.spelling ≠ [] ∧ ∀ c ∈ r.spelling, isBlank c = false := by
  cases r <;> exact ⟨by decide, List.all_iff_forall_prop.1 (by decide)⟩

theorem laterShorter : all.Pairwise fun r s => ¬ r.spelling <+: s.spelling := by decide

end Relation

namespace Constraint

inductive Related (r : Relation) (word : Text) : Text → Prop where
  | parts {before gap after : Text} (front : ∀ c ∈ before, isBlank c = true)
      (between : ∀ c ∈ gap, isBlank c = true) (behind : ∀ c ∈ after, isBlank c = true)
      (single : Word word) : Related r word (before ++ (r.spelling ++ gap ++ word) ++ after)

inductive Spelled (c : Constraint) (item : Text) : Prop where
  | related {before gap after : Text} (grammatical : c.number.Grammatical)
      (front : ∀ d ∈ before, isBlank d = true) (between : ∀ d ∈ gap, isBlank d = true)
      (behind : ∀ d ∈ after, isBlank d = true)
      (whole : item = before ++ (c.relation.spelling ++ gap ++ c.number.text) ++ after)
  | bare {before after : Text} (equality : c.relation = .equal) (grammatical : c.number.Grammatical)
      (front : ∀ d ∈ before, isBlank d = true) (behind : ∀ d ∈ after, isBlank d = true)
      (whole : item = before ++ c.number.text ++ after)

inductive Blamed (item : Text) : Text → Prop where
  | operand {r : Relation} {word : Text} (related : Related r word item)
      (longest : ∀ s other, Related s other item → s.spelling.length ≤ r.spelling.length) :
      Blamed item word
  | whole (apart : ∀ r word, ¬ Related r word item) : Blamed item (trim item)

section
variable {item word : Text} {r s : Relation}

theorem wordSelf (single : Word word) : trim word = word :=
  trimSolid fun c member => (single.solid c member).1

theorem relatedTrim : Related r word item ↔
    Word word ∧ ∃ gap, (∀ c ∈ gap, isBlank c = true) ∧ trim item = r.spelling ++ (gap ++ word) := by
  constructor
  · rintro @⟨before, gap, after, front, between, behind, single⟩
    have core : trim (r.spelling ++ gap ++ word) = r.spelling ++ gap ++ word := by
      obtain ⟨some, solid⟩ := r.spellingEnds
      obtain ⟨d, more, same⟩ := List.exists_cons_of_ne_nil some
      refine trimWhole (fun c first => ?_) fun c last => ?_
      · rw [same] at first solid
        cases first
        exact solid d List.mem_cons_self
      · rw [List.getLast?_append_of_ne_nil _ single.some] at last
        exact (single.solid c (List.mem_of_mem_getLast? last)).1
    rw [trimBehind behind, trimFront front, core, List.append_assoc]
    exact ⟨single, gap, between, rfl⟩
  · intro ⟨single, gap, between, core⟩
    obtain ⟨before, after, front, behind, whole⟩ := trimParts item
    rw [whole, core, ← List.append_assoc r.spelling]
    exact .parts front between behind single

theorem relatedIff : Related r word item ↔
    ((stripLead? r.spelling (trim item)).bind fun behind =>
      (operand? behind).map fun word => (r, word)) = some (r, word) := by
  simp only [relatedTrim, Option.bind_eq_some_iff, Option.map_eq_some_iff, stripLeadSome, operandIff,
    Prod.mk.injEq, true_and, exists_eq_right]
  constructor
  · intro ⟨single, gap, blank, core⟩
    exact ⟨gap ++ word, core, single, gap, blank, rfl⟩
  · rintro ⟨behind, core, single, gap, blank, rfl⟩
    exact ⟨single, gap, blank, core⟩

theorem relatedLead (related : Related r word item) : r.spelling <+: trim item := by
  obtain ⟨_, gap, _, core⟩ := relatedTrim.1 related
  exact ⟨gap ++ word, core.symm⟩

-- Two relations in front of one item are spelled one inside the other.
theorem splitLongest (cut : split? (trim item) = some (r, word)) :
    Related r word item ∧ ∀ s other, Related s other item → s.spelling.length ≤ r.spelling.length := by
  obtain ⟨earlier, chosen, later, listed, found, passed⟩ := List.findSome?_eq_some_iff.1 cut
  obtain rfl : chosen = r := by
    obtain ⟨behind, _, taken⟩ := Option.bind_eq_some_iff.1 found
    obtain ⟨_, _, same⟩ := Option.map_eq_some_iff.1 taken
    exact (Prod.mk.inj same).1
  have related : Related chosen word item := relatedIff.2 found
  refine ⟨related, fun s other rival => Nat.le_of_not_lt fun longer => ?_⟩
  have inside : chosen.spelling <+: s.spelling :=
    List.prefix_of_prefix_length_le (relatedLead related) (relatedLead rival) (Nat.le_of_lt longer)
  have member := s.memAll
  rw [listed, List.mem_append, List.mem_cons] at member
  rcases member with before | rfl | after
  · have none := passed s before
    rw [relatedIff.1 rival] at none
    contradiction
  · exact absurd longer (Nat.lt_irrefl _)
  · have order := Relation.laterShorter
    rw [listed] at order
    exact (List.pairwise_cons.1 (List.pairwise_append.1 order).2.1).1 s after inside

theorem splitNone : split? (trim item) = none ↔ ∀ r word, ¬ Related r word item := by
  unfold split?
  rw [List.findSome?_eq_none_iff]
  constructor
  · intro passed r word related
    have none := passed r r.memAll
    rw [relatedIff.1 related] at none
    contradiction
  · intro apart r _
    refine Option.eq_none_iff_forall_ne_some.2 fun found cut => ?_
    obtain ⟨behind, lead, taken⟩ := Option.bind_eq_some_iff.1 cut
    obtain ⟨word, operand, rfl⟩ := Option.map_eq_some_iff.1 taken
    exact apart r word (relatedIff.2 cut)

theorem relatedSame {other : Text} (left : Related r word item) (right : Related r other item) :
    word = other := by
  have found := relatedIff.1 right
  rw [relatedIff.1 left] at found
  exact (Prod.mk.inj (Option.some.inj found)).2

theorem longestSplit (related : Related r word item)
    (longest : ∀ s other, Related s other item → s.spelling.length ≤ r.spelling.length) :
    split? (trim item) = some (r, word) := by
  cases cut : split? (trim item) with
  | none => exact absurd related (splitNone.1 cut r word)
  | some parts =>
    obtain ⟨s, other⟩ := parts
    obtain ⟨rival, most⟩ := splitLongest cut
    have inside : s.spelling <+: r.spelling :=
      List.prefix_of_prefix_length_le (relatedLead rival) (relatedLead related) (longest s other rival)
    obtain rfl : s = r := Relation.spellingInjective (inside.eq_of_length_le (most r word related))
    rw [relatedSame rival related]

theorem blamedIff : Blamed item word ↔ ((split? (trim item)).getD (.equal, trim item)).2 = word := by
  constructor
  · intro blamed
    cases blamed with
    | operand related longest => rw [longestSplit related longest, Option.getD_some]
    | whole apart => rw [splitNone.2 apart, Option.getD_none]
  · intro same
    cases cut : split? (trim item) with
    | none =>
      rw [cut, Option.getD_none] at same
      rw [← same]
      exact .whole (splitNone.1 cut)
    | some parts =>
      obtain ⟨r, other⟩ := parts
      rw [cut, Option.getD_some] at same
      obtain rfl : other = word := same
      obtain ⟨related, longest⟩ := splitLongest cut
      exact .operand related longest

theorem readSpelled {c : Constraint} (read : ofText item = .ok c) : c.Spelled item := by
  obtain ⟨version, cut, found⟩ := ofTextRead read
  obtain ⟨grammatical, same⟩ := Number.readIff.1 found
  cases split : split? (trim item) with
  | none =>
    rw [split, Option.getD_none, Prod.mk.injEq] at cut
    rw [← cut.2, trimTwice] at same
    obtain ⟨before, after, front, behind, whole⟩ := trimParts item
    rw [← same] at whole
    exact .bare cut.1.symm grammatical front behind whole
  | some parts =>
    obtain ⟨r, word⟩ := parts
    rw [split, Option.getD_some] at cut
    obtain ⟨rfl, rfl⟩ := Prod.mk.inj cut
    obtain @⟨before, gap, after, front, between, behind, single⟩ := (splitLongest split).1
    rw [wordSelf single] at same
    exact .related grammatical front between behind (by rw [same])

theorem spelledRead {c : Constraint} (spelled : c.Spelled item) : ofText item = .ok c := by
  cases spelled with
  | @related before gap after grammatical front between behind whole =>
    have dotted := Number.formedDotted grammatical.toFormed
    have some : c.number.text ≠ [] := by
      obtain ⟨run, more, _, point⟩ := Number.formedPoint grammatical.toFormed
      simp [point]
    have related : Related c.relation c.number.text item := by
      rw [whole]
      exact .parts front between behind (wordDotted some dotted)
    obtain ⟨_, left, blank, core⟩ := relatedTrim.1 related
    have read : Number.ofText? c.number.text = .some c.number := Number.grammaticalNormal grammatical
    unfold ofText
    simp only [core, splitSpelled c.relation blank some dotted, Option.getD_some, read]
  | bare equality grammatical front behind whole =>
    have normal := Number.grammaticalNormal grammatical
    have core : trim item = trim c.number.text := by rw [whole, trimBehind behind, trimFront front]
    have read : Number.ofText? item = some c.number := by
      rw [← Number.ofTextTrim, core, Number.ofTextTrim]
      exact normal
    rw [bareRead read, ← equality]

theorem spelledIff {c : Constraint} : ofText item = .ok c ↔ c.Spelled item :=
  ⟨readSpelled, spelledRead⟩

theorem refusedIff {fault : Fault} : ofText item = .error fault ↔
    (¬ ∃ c : Constraint, c.Spelled item) ∧ ∃ word, Blamed item word ∧ fault = .irrational word := by
  simp only [← spelledIff, blamedIff, exists_eq_left']
  unfold ofText
  simp only
  split
  · simp
  · simp [eq_comm]

end
end Constraint
end PkgInfo.Predicate
