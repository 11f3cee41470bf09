import PkgInfo.Proofs.Record.Entries
import PkgInfo.Record.Check

/-! Fields that no version knows. A record carries them under their own names, and what it shows of
itself as a whole (its version, items, document and findings) depends on the known fields alone. -/
namespace PkgInfo.Record

section
variable [Host] {r : Record} {fields : Table Value}
  (known : ∀ f : Field, fields.find? f.label = r.fields.find? f.label)
include known

theorem labelsAlike (f : Field) : ReadsAlike r {r with fields} f.label :=
  readsAlike (by rw [Field.canonicalLabel, known])

theorem getShown (f : Field) : get {r with fields} f.label = r.get f.label := (labelsAlike known f).get.symm

theorem containsShown (f : Field) : contains {r with fields} f.label = r.contains f.label :=
  (labelsAlike known f).contains.symm

theorem itemsShown : items {r with fields} = r.items := by simp only [items, keys, getShown known]

theorem renderShown : render {r with fields} = r.render := by
  have written : isWritten {r with fields} = r.isWritten := by
    funext f
    simp only [isWritten, containsShown known]
  simp only [render, headers, keys, written, getShown known]

theorem checkShown (critic : Option Critic) : check {r with fields} critic = r.check critic := by
  have missing : missingOf {r with fields} = r.missingOf := by
    funext f
    simp only [missingOf, getText, getShown known]
  have prose : proseFindings {r with fields} critic = r.proseFindings critic := by
    simp only [proseFindings, getText, getShown known, containsShown known]
  have dependency : dependencyFinding {r with fields} = r.dependencyFinding := by
    funext f
    simp only [dependencyFinding, getList, getShown known]
  have values : valueFindings {r with fields} = r.valueFindings := by
    simp only [valueFindings, dependency, textFinding, getText, getShown known]
  simp only [check, missing, prose, values]

end

section
variable {r : Record} {field : Text}

theorem unknownApart (unknown : ¬ Field.Known field) (f : Field) : field ≠ f.label := fun same =>
  unknown ⟨f, same.symm⟩

theorem storedUnknown (unknown : ¬ Field.Known field) (value : Value) :
    stored field value = .text value.asText := by
  have scalar : Field.categoryOf field = .scalarText := by
    simp [Field.categoryOf, Field.unknownIff.1 unknown]
  rw [storedOther (unknownApart unknown .description), scalar]
  cases value <;> rfl

theorem inferUnknown (sound : Sound r) (unknown : ¬ Field.Known field) :
    Version.inferNames (r.fields.keys ++ [field]) = .ok r.version := by
  rw [inferSet, Field.unknownIff.1 unknown, Option.toList_none, List.append_nil]
  exact versionInferred sound

theorem setUnknown (sound : Sound r) {name : Text} (unknown : ¬ Field.Known (Field.canonical name))
    (value : Value) : r.set name value =
      ⟨{r with fields := r.fields.insert (Field.canonical name) (.text value.asText)}, none, []⟩ := by
  have other := unknownApart unknown
  simp only [set, other, if_false, inferUnknown sound unknown, storedUnknown unknown, complaints]

end

/-- Setting a field that no version knows succeeds without a complaint. It is stored as one text under its
own name and shows in nothing else, and removing it where it was not stored before gives back the record. -/
theorem unknownInert [Host] {r : Record} (reachable : Reachable r) {name : Text}
    (unknown : ¬ Field.Known (Field.canonical name)) (value : Value) :
    let e := r.set name value
    e.failure = none ∧ e.log = [] ∧ e.record.raw? name = some (.text value.asText) ∧
      e.record.version = r.version ∧ e.record.keys = r.keys ∧ e.record.items = r.items ∧
      e.record.render = r.render ∧ (∀ critic, e.record.check critic = r.check critic) ∧
      (∀ other, Field.canonical other ≠ Field.canonical name → ReadsAlike r e.record other) ∧
      (r.contains name = false → e.record.remove name = r) := by
  have sound := reachableSound reachable
  have apart := unknownApart unknown
  intro e
  have same : e = _ := setUnknown sound unknown value
  have done : e.failure = none := by rw [same]
  have back : r.contains name = false → e.record.remove name = r := by
    intro fresh
    simp only [contains, Table.contains, Bool.or_eq_false_iff] at fresh
    have absent := Option.not_isSome_iff_eq_none.1 (Bool.eq_false_iff.1 fresh.2)
    exact setUndone sound (apart .metadataVersion) absent done rfl
  have known (f : Field) : e.record.fields.find? f.label = r.fields.find? f.label := by
    rw [same, Table.findInsert, if_neg (apart f)]
  clear_value e
  subst same
  refine ⟨rfl, rfl, ?_, rfl, rfl, itemsShown known, renderShown known, checkShown known, ?_, back⟩
  · rw [raw?, Table.findInsert, if_pos rfl]
  · intro other elsewhere
    exact readsAlike (by rw [Table.findInsert, if_neg (Ne.symm elsewhere)])

attribute [local instance] Host.linux

-- A blank inside keeps the name from reaching a field that marks 1.2.
theorem unknownInertMarker :
    let value := Value.list ["a".toList, "b".toList]
    let after := (legacy.set "Requires Dist".toList value).record
    Reachable legacy ∧ ¬ Field.Known (Field.canonical "Requires Dist".toList) ∧
      after.raw? "Requires Dist".toList = some (.text "a,b".toList) ∧ after.version = .v11 ∧
      after.check none = legacy.check none ∧ ReadsAlike legacy after "requires_dist".toList ∧
      after.remove "Requires Dist".toList = legacy := by
  intro value after
  have reachable : Reachable legacy := ⟨_, rfl⟩
  have unknown : ¬ Field.Known (Field.canonical "Requires Dist".toList) := by decide
  obtain ⟨_, _, raw, version, _, _, _, check, apart, back⟩ := unknownInert reachable unknown value
  exact ⟨reachable, unknown, raw, version.trans (by decide), check none,
    apart "requires_dist".toList (by decide), back (by decide)⟩

end PkgInfo.Record
