import PkgInfo.Proofs.Record.Undoing
import PkgInfo.Proofs.Value.Rejoining

/-! Setting a field from its own text. Where no marker is looked at, what is read of a field as one text is
read as the value that is stored, so setting it again is never refused and leaves the record as it is. -/
namespace PkgInfo

namespace Record
open Version (inferNames)

section
variable {r : Record} {name : Text}

theorem inferStored (sound : Sound r) {field : Text} (stored : field ∈ r.fields.keys) :
    inferNames (r.fields.keys ++ [field]) = .ok r.version := by
  obtain ⟨covers, oldest⟩ := Version.inferNamesOk.1 (versionInferred sound)
  have same : r.fields.keys ++ [field] ⊆ r.fields.keys :=
    List.append_subset.2 ⟨List.Subset.refl _, by simpa using stored⟩
  refine Version.inferNamesOk.2 ⟨Version.coversFewer same covers, fun w all => oldest w ?_⟩
  exact Version.coversFewer (List.subset_append_left _ _) all

theorem setSame (sound : Sound r) (other : Field.canonical name ≠ Field.metadataVersion.label)
    {value : Value}
    (found : r.fields.find? (Field.canonical name) = some (stored (Field.canonical name) value)) :
    (r.set name value).failure = none ∧ (r.set name value).record = r := by
  have inside : Field.canonical name ∈ r.fields.keys := by
    rw [Table.memKeys, Table.contains, found]
    rfl
  have inferred := inferStored sound inside
  have outcome := setting r name value
  generalize r.set name value = e at outcome ⊢
  cases outcome with
  | ignored isVersion => contradiction
  | refused known conflict =>
    rw [inferred] at conflict
    contradiction
  | done known fits =>
    rw [inferred] at fits
    exact ⟨rfl, by rw [Table.insertFound found, ← Except.ok.inj fits]⟩

theorem getStored [Host] (off : r.platformDependent = false)
    (other : Field.canonical name ≠ Field.metadataVersion.label) {value : Value}
    (found : r.fields.find? (Field.canonical name) = some value) : r.getText name = pure value.asText := by
  simp only [getText, get, other, if_false, found, screens, off, Bool.false_and, Bool.false_eq_true]
  rfl

end

/-- A field that was set to a text can be set to its own text again, which leaves the record as it is. -/
theorem setFromOwnText [Host] {r : Record} (reachable : Reachable r) (off : r.platformDependent = false)
    {name : Text} (plain : Field.canonical name ≠ Field.description.label)
    (other : Field.canonical name ≠ Field.metadataVersion.label) {text : Text}
    (done : (r.set name (.text text)).failure = none) :
    let first := (r.set name (.text text)).record
    let own := (first.getText name).value
    let again := first.set name (.text own)
    first.raw? name = some ((Value.text text).coerce (Field.categoryOf (Field.canonical name))) ∧
      again.failure = none ∧ again.record.raw? name = first.raw? name ∧
      again.record.version = first.version ∧ again.record = first := by
  intro first own again
  have sound : Sound first := setSound (reachableSound reachable) name (.text text)
  have found : first.fields.find? (Field.canonical name) =
      some ((Value.text text).coerce (Field.categoryOf (Field.canonical name))) := by
    rw [setFound done, if_pos ⟨rfl, other⟩, storedOther plain]
  have still : first.platformDependent = false := by
    obtain ⟨fields, version, same⟩ := setPart r name (.text text)
    rw [show first = {r with fields, version} from same]
    exact off
  have restored : stored (Field.canonical name) (.text own) =
      (Value.text text).coerce (Field.categoryOf (Field.canonical name)) := by
    rw [storedOther plain, show own = _ from congrArg Logged.value (getStored still other found)]
    exact Value.coerceRejoined _ text
  obtain ⟨accepted, same⟩ := setSame sound other (found.trans (congrArg some restored.symm))
  exact ⟨found, accepted, by rw [same], by rw [same], same⟩

attribute [local instance] Host.linux

theorem setFromOwnTextUnbalanced :
    let name := Field.requiresDist.label
    let text := Value.text "foo (>=1, <2), b), ,é , baz (x(y, z), w ".toList
    let first := (named.set name text).record
    let own := (first.getText name).value
    Reachable named ∧ (named.set name text).failure = none ∧
      first.raw? name = some (.list
        ["foo (>=1, <2)".toList, "b)".toList, "é".toList, "baz (x(y, z), w".toList]) ∧
      own = "foo (>=1, <2),b),é,baz (x(y, z), w".toList ∧
      (first.set name (.text own)).failure = none ∧ (first.set name (.text own)).record = first := by
  intro name text first own
  have reachable : Reachable named := ⟨_, rfl⟩
  have canonical : Field.canonical name = name := Field.canonicalLabel .requiresDist
  have done : (named.set name text).failure = none := by decide +kernel
  have apart (f : Field) (other : .requiresDist ≠ f) : Field.canonical name ≠ f.label := by
    rw [canonical]
    exact Field.labelApart other
  obtain ⟨stored, accepted, _, _, same⟩ :=
    setFromOwnText reachable rfl (apart .description nofun) (apart .metadataVersion nofun) done
  exact ⟨reachable, done, stored.trans (by decide +kernel), by decide +kernel, accepted, same⟩

end Record
end PkgInfo
