import PkgInfo.Proofs.Record.Conflict
import PkgInfo.Proofs.Record.Options
import PkgInfo.Proofs.Version.Names

/-! Setting and removing one field. Neither shows in any other, but for the version, which setting never
lowers and removing never raises. Removing a field that was not set before takes back that it was set. -/
namespace PkgInfo

namespace Record
open Version (inferNames)

section
variable {r : Record} {name : Text}

theorem versionInferred (sound : Sound r) : inferNames r.fields.keys = .ok r.version :=
  Version.inferOk.2 sound.least

theorem setRaises (sound : Sound r) {value : Value} (done : (r.set name value).failure = none) :
    r.version ≤ (r.set name value).record.version := by
  have outcome := setting r name value
  generalize r.set name value = e at outcome done ⊢
  cases outcome with
  | ignored isVersion => exact Nat.le_refl _
  | refused known conflict => contradiction
  | done known fits =>
    obtain ⟨w, inferred, le⟩ := Version.inferNamesFewer (List.subset_append_left _ _) fits
    rw [versionInferred sound] at inferred
    rw [Except.ok.inj inferred]
    exact le

theorem removeLowers (sound : Sound r) : (r.remove name).record.version ≤ r.version := by
  obtain ⟨version, fits, same⟩ := removed sound name
  have within : (r.fields.erase (Field.canonical name)).keys ⊆ r.fields.keys :=
    fun key kept => (Table.memKeysErase.1 kept).2
  obtain ⟨w, inferred, le⟩ := Version.inferNamesFewer within (versionInferred sound)
  rw [fits] at inferred
  rw [same, Except.ok.inj inferred]
  exact le

theorem setUndone (sound : Sound r) {value : Value} {spelling : Text}
    (other : Field.canonical name ≠ Field.metadataVersion.label)
    (absent : r.fields.find? (Field.canonical name) = none)
    (done : (r.set name value).failure = none)
    (same : Field.canonical spelling = Field.canonical name) :
    (r.set name value).record.remove spelling = r := by
  have next := setSound sound name value
  have outcome := setting r name value
  generalize r.set name value = e at outcome done next ⊢
  cases outcome with
  | ignored isVersion => contradiction
  | refused known conflict => contradiction
  | done known fits =>
    obtain ⟨version, inferred, left⟩ := removed next spelling
    rw [same, Table.eraseInserted absent, versionInferred sound] at inferred
    rw [left, same, Table.eraseInserted absent, ← Except.ok.inj inferred]

end

section
variable [Host]

structure SameAt (r s : Record) (name : Text) : Prop where
  raw : r.raw? name = s.raw? name
  get : r.get name = s.get name
  contains : r.contains name = s.contains name

theorem sameAt {r : Record} {name : Text} (other : Field.canonical name ≠ Field.metadataVersion.label)
    {fields : Table Value} (version : Version)
    (found : fields.find? (Field.canonical name) = r.fields.find? (Field.canonical name)) :
    SameAt r {r with fields, version} name := by
  constructor
  · exact found.symm
  · simp only [get, other, if_false, found]
    rfl
  · simp only [contains, Table.contains, found]

variable {r : Record} {name : Text}

theorem setApart {other : Text} (apart : Field.canonical other ≠ Field.canonical name)
    (field : Field.canonical other ≠ Field.metadataVersion.label) (value : Value) :
    SameAt r (r.set name value).record other := by
  have outcome := setting r name value
  generalize r.set name value = e at outcome
  cases outcome with
  | ignored isVersion => exact ⟨rfl, rfl, rfl⟩
  | refused known conflict => exact ⟨rfl, rfl, rfl⟩
  | @done version known fits =>
    exact sameAt field version (by rw [Table.findInsert, if_neg (Ne.symm apart)])

theorem removeApart (sound : Sound r) {other : Text} (apart : Field.canonical other ≠ Field.canonical name)
    (field : Field.canonical other ≠ Field.metadataVersion.label) : SameAt r (r.remove name) other := by
  obtain ⟨version, _, same⟩ := removed sound name
  rw [same]
  exact sameAt field version (by rw [Table.findErase, if_neg (Ne.symm apart)])

/-- Setting a field that is not stored is undone by removing it under any of its spellings, which gives
back what was stored. Whatever is set or removed, other fields are the same as before, and the version
is no lower after setting and no higher after removing. -/
theorem setRemoved {r : Record} (reachable : Reachable r) (name : Text) (value : Value) :
    let field := Field.canonical name
    let e := r.set name value
    (field ≠ Field.metadataVersion.label → r.contains name = false → e.failure = none →
      ∀ spelling, Field.canonical spelling = field →
        (Change.remove spelling).answer? e.record = some (.removed (some (stored field value))) ∧
        e.record.raw? name = some (stored field value) ∧ e.record.remove spelling = r) ∧
      (∀ other, Field.canonical other ≠ field → Field.canonical other ≠ Field.metadataVersion.label →
        SameAt r e.record other ∧ SameAt r (r.remove name) other) ∧
      (e.failure = none → r.version ≤ e.record.version) ∧ (r.remove name).record.version ≤ r.version := by
  have sound := reachableSound reachable
  intro field e
  refine ⟨fun other fresh done spelling same => ?_, fun other apart known => ?_, setRaises sound,
    removeLowers sound⟩
  · have absent : r.fields.find? field = none := by
      simp only [contains, Table.contains, Bool.or_eq_false_iff] at fresh
      exact Option.not_isSome_iff_eq_none.1 (Bool.eq_false_iff.1 fresh.2)
    have found : e.record.fields.find? field = some (stored field value) := by
      rw [setFound done, if_pos ⟨rfl, other⟩]
    refine ⟨?_, found, setUndone sound other absent done same⟩
    simp only [Change.answer?, removeValue, raw?, same, found]
  · exact ⟨setApart apart known value, removeApart sound apart known⟩

def named : Record := run empty [.set "NAME".toList (.text "demo".toList)]

end

attribute [local instance] Host.linux

theorem setRemovedAddress :
    let value := Value.text "a@b.org".toList
    let after := (named.set "Maintainer-Email".toList value).record
    Reachable named ∧ named.version = .v10 ∧ after.version = .v12 ∧
      (Change.remove " maintainer_email".toList).answer? after = some (.removed (some value)) ∧
      after.remove " maintainer_email".toList = named ∧ SameAt named after "name".toList := by
  intro value after
  have reachable : Reachable named := ⟨_, rfl⟩
  obtain ⟨undone, apart, _⟩ := setRemoved reachable "Maintainer-Email".toList value
  obtain ⟨answer, _, back⟩ := undone (by decide) (by decide) (by decide) " maintainer_email".toList
    (by decide)
  exact ⟨reachable, by decide, by decide, answer, back, (apart "name".toList (by decide) (by decide)).1⟩

end Record
end PkgInfo
