import PkgInfo.Proofs.Record.Reachable

/-! Options say how a record is read and what is warned of. None of them has a part in what is stored:
two records that are changed in the same way stay alike, however their options differ on the way. -/
namespace PkgInfo

namespace Record

inductive Answer where
  | changed (failure : Option Error)
  | removed (value : Option Value)
  deriving DecidableEq

def Change.answer? (r : Record) : Change → Option Answer
  | .set name value => some (.changed (r.set name value).failure)
  | .update pairs => some (.changed (r.update pairs).failure)
  | .remove name => some (.removed (r.remove name).value)
  | .readInto input => some (.changed (r.readInto input).failure)
  | .platformDependent _ | .context _ | .isPredicate _ => none

def Change.isOption : Change → Bool
  | .platformDependent _ | .context _ | .isPredicate _ => true
  | .set .. | .update _ | .remove _ | .readInto _ => false

structure Step where
  answer : Answer
  fields : Table Value
  version : Version
  deriving DecidableEq

def history (r : Record) : List Change → List Step
  | [] => []
  | change :: rest =>
    let next := change.apply r
    ((change.answer? r).toList.map fun a => ⟨a, next.fields, next.version⟩) ++ history next rest

structure Alike (r s : Record) : Prop where
  fields : r.fields = s.fields
  version : r.version = s.version

theorem setAlike {r s : Record} (alike : Alike r s) (name : Text) (value : Value) :
    (r.set name value).failure = (s.set name value).failure ∧
      Alike (r.set name value).record (s.set name value).record := by
  unfold set
  simp only [alike.fields]
  split
  · exact ⟨rfl, alike⟩
  · split
    · exact ⟨rfl, alike⟩
    · exact ⟨rfl, rfl, rfl⟩

theorem updateAlike {r s : Record} (alike : Alike r s) (pairs : List (Text × Value)) :
    (r.update pairs).failure = (s.update pairs).failure ∧
      Alike (r.update pairs).record (s.update pairs).record := by
  induction pairs generalizing r s with
  | nil => exact ⟨rfl, alike⟩
  | cons pair rest ih =>
    obtain ⟨name, value⟩ := pair
    obtain ⟨failure, next⟩ := setAlike alike name value
    simp only [update]
    rw [← failure]
    split
    · exact ⟨failure, next⟩
    · exact ih next

theorem removeAlike {r s : Record} (alike : Alike r s) (name : Text) :
    (r.remove name).value = (s.remove name).value ∧ Alike (r.remove name) (s.remove name) := by
  unfold remove
  simp only [alike.fields]
  split
  · exact ⟨rfl, alike⟩
  · split
    · exact ⟨rfl, rfl, rfl⟩
    · exact ⟨rfl, rfl, alike.version⟩

theorem readIntoAlike {r s : Record} (alike : Alike r s) (input : Bytes) :
    (r.readInto input).failure = (s.readInto input).failure ∧
      Alike (r.readInto input).record (s.readInto input).record := by
  unfold readInto
  split
  · exact ⟨rfl, alike⟩
  · split
    · exact ⟨rfl, alike⟩
    · exact updateAlike alike _

theorem changeAlike {r s : Record} (alike : Alike r s) (change : Change) :
    change.answer? r = change.answer? s ∧ Alike (change.apply r) (change.apply s) := by
  cases change with
  | set name value =>
    obtain ⟨failure, next⟩ := setAlike alike name value
    exact ⟨by simp only [Change.answer?, failure], next⟩
  | update pairs =>
    obtain ⟨failure, next⟩ := updateAlike alike pairs
    exact ⟨by simp only [Change.answer?, failure], next⟩
  | remove name =>
    obtain ⟨value, next⟩ := removeAlike alike name
    exact ⟨by simp only [Change.answer?, value], next⟩
  | readInto input =>
    obtain ⟨failure, next⟩ := readIntoAlike alike input
    exact ⟨by simp only [Change.answer?, failure], next⟩
  | platformDependent flag | context values | isPredicate judge =>
    exact ⟨rfl, alike.fields, alike.version⟩

theorem optionAlike {r s : Record} (alike : Alike r s) {change : Change}
    (option : change.isOption = true) : change.answer? r = none ∧ Alike (change.apply r) s := by
  cases change with
  | set | update | remove | readInto => contradiction
  | platformDependent | context | isPredicate => exact ⟨rfl, alike.fields, alike.version⟩

theorem historyPlain {r s : Record} (alike : Alike r s) (changes : List Change) :
    history r changes = history s (changes.filter fun c => !c.isOption) ∧
      Alike (run r changes) (run s (changes.filter fun c => !c.isOption)) := by
  induction changes generalizing r s with
  | nil => exact ⟨rfl, alike⟩
  | cons change rest ih =>
    cases option : change.isOption with
    | true =>
      obtain ⟨silent, next⟩ := optionAlike alike option
      obtain ⟨steps, last⟩ := ih next
      simp only [List.filter_cons, option, Bool.not_true, Bool.false_eq_true, if_false, history,
        silent, Option.toList_none, List.map_nil, List.nil_append]
      exact ⟨steps, last⟩
    | false =>
      obtain ⟨answer, next⟩ := changeAlike alike change
      obtain ⟨steps, last⟩ := ih next
      simp only [List.filter_cons, option, Bool.not_false, if_true, history, answer, next.fields,
        next.version, steps]
      exact ⟨trivial, last⟩

/-- Two runs of the same changes give the same answers and store the same after each of them, whatever
options are set in the one and in the other. -/
theorem optionsUnseen (left right : List Change)
    (same : (left.filter fun c => !c.isOption) = right.filter fun c => !c.isOption) :
    history empty left = history empty right ∧
      (run empty left).fields = (run empty right).fields ∧
      (run empty left).version = (run empty right).version := by
  have alike : Alike empty empty := ⟨rfl, rfl⟩
  obtain ⟨steps, last⟩ := historyPlain alike left
  obtain ⟨steps', last'⟩ := historyPlain alike right
  rw [← same] at steps' last'
  exact ⟨steps.trans steps'.symm, last.fields.trans last'.fields.symm,
    last.version.trans last'.version.symm⟩

def guarded : List Change :=
  [.isPredicate fun _ => false, .set "requires_dist".toList (.text "x; os.name == 'nt'".toList),
    .platformDependent true, .remove "name".toList, .set "Requires".toList (.text "y".toList)]

def unguarded : List Change :=
  [.set "requires_dist".toList (.text "x; os.name == 'nt'".toList), .context (some ∅),
    .remove "name".toList, .set "Requires".toList (.text "y".toList), .platformDependent false]

attribute [local instance] Host.linux

theorem optionsUnseenGuarded :
    history empty guarded = history empty unguarded ∧ (history empty guarded).length = 3 ∧
      ((run empty guarded).get "requires_dist".toList).value ≠
        ((run empty unguarded).get "requires_dist".toList).value := by
  obtain ⟨alike, _⟩ := optionsUnseen guarded unguarded rfl
  exact ⟨alike, by decide +kernel, by decide +kernel⟩

end Record
end PkgInfo
