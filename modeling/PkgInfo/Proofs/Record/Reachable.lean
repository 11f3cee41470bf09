import PkgInfo.Document
import PkgInfo.Proofs.Field.Naming
import PkgInfo.Proofs.Version.Inference

/-! What every record keeps, whatever is done to it: its version is the oldest that knows its fields,
the two kinds of marker fields do not meet in it, and each value stands under a canonical name in the
shape its category asks for. A call that fails leaves a record of the same kind. -/
namespace PkgInfo

def Value.isList : Value → Bool
  | .text _ => false
  | .list _ => true

namespace Record

inductive Change where
  | set (name : Text) (value : Value)
  | update (pairs : List (Text × Value))
  | remove (name : Text)
  | readInto (input : Bytes)
  | platformDependent (flag : Bool)
  | context (values : Option Marker.Context)
  | isPredicate (judge : Text → Bool)

def Change.apply (r : Record) : Change → Record
  | .set name value => (r.set name value).record
  | .update pairs => (r.update pairs).record
  | .remove name => r.remove name
  | .readInto input => (r.readInto input).record
  | .platformDependent flag => {r with platformDependent := flag}
  | .context values => {r with context := values}
  | .isPredicate judge => {r with isPredicate := judge}

def run (r : Record) (changes : List Change) : Record := changes.foldl Change.apply r

def Reachable (r : Record) : Prop := ∃ changes, run empty changes = r

def known (r : Record) : List Field := r.fields.keys.filterMap Field.labelled?

structure Sound (r : Record) : Prop where
  least : r.version.Least r.known
  unmixed : ¬ Version.Mixed r.known
  canonical : ∀ key ∈ r.fields.keys,
    Field.canonical key = key ∧ key ≠ Field.metadataVersion.label
  shaped : ∀ key value, r.fields.find? key = some value →
    value.isList = (Field.categoryOf key).isList

theorem memKnown {r : Record} {f : Field} : f ∈ r.known ↔ f.label ∈ r.fields.keys := by
  simp [known, Field.labelledIff]

theorem storedKind {r : Record} (sound : Sound r) {f : Field} {value : Value}
    (found : r.fields.find? f.label = some value) : value.isList = f.category.isList := by
  rw [← Field.categoryOfLabel]
  exact sound.shaped f.label value found

inductive Setting (r : Record) (name : Text) (value : Value) : Edit → Prop where
  | ignored (isVersion : Field.canonical name = Field.metadataVersion.label) :
      Setting r name value ⟨r, none, []⟩
  | refused {cause} (other : Field.canonical name ≠ Field.metadataVersion.label)
      (conflict : Version.inferNames (r.fields.keys ++ [Field.canonical name]) = .error cause) :
      Setting r name value ⟨r, some (.versionConflict (Field.canonical name) cause),
        r.complaints (Field.canonical name) (stored (Field.canonical name) value)⟩
  | done {version} (other : Field.canonical name ≠ Field.metadataVersion.label)
      (fits : Version.inferNames (r.fields.keys ++ [Field.canonical name]) = .ok version) :
      Setting r name value
        ⟨{r with
            fields := r.fields.insert (Field.canonical name) (stored (Field.canonical name) value),
            version},
          none, r.complaints (Field.canonical name) (stored (Field.canonical name) value)⟩

theorem setting (r : Record) (name : Text) (value : Value) :
    Setting r name value (r.set name value) := by
  unfold set
  by_cases isVersion : Field.canonical name = Field.metadataVersion.label
  · simp only [isVersion, if_true]
    exact .ignored isVersion
  · simp only [isVersion, if_false]
    cases outcome : Version.inferNames (r.fields.keys ++ [Field.canonical name]) with
    | error cause => exact .refused isVersion outcome
    | ok version => exact .done isVersion outcome

theorem setPart (r : Record) (name : Text) (value : Value) :
    ∃ fields version, (r.set name value).record = {r with fields, version} := by
  have outcome := setting r name value
  generalize r.set name value = e at outcome
  cases outcome with
  | ignored isVersion => exact ⟨r.fields, r.version, rfl⟩
  | refused other conflict => exact ⟨r.fields, r.version, rfl⟩
  | @done version other fits => exact ⟨_, version, rfl⟩

theorem storedShape (field : Text) (value : Value) :
    (stored field value).isList = (Field.categoryOf field).isList := by
  unfold stored
  cases value <;> cases Field.categoryOf field <;> rfl

theorem memKnownInsert {r : Record} {field : Text} {value : Value} {version : Version} {f : Field} :
    f ∈ known {r with fields := r.fields.insert field value, version} ↔
      f ∈ (r.fields.keys ++ [field]).filterMap Field.labelled? := by
  simp only [memKnown, Table.memKeysInsert, List.filterMap_append, List.mem_append,
    List.mem_filterMap, Field.labelledIff, List.mem_singleton, exists_eq_left, exists_eq_right']
  exact or_comm

theorem setSound {r : Record} (sound : Sound r) (name : Text) (value : Value) :
    Sound (r.set name value).record := by
  have outcome := setting r name value
  generalize r.set name value = e at outcome
  cases outcome with
  | ignored isVersion => exact sound
  | refused other conflict => exact sound
  | @done version other fits =>
    have asked := Version.inferOk.1 fits
    have least : Version.Least version (known {r with
        fields := r.fields.insert (Field.canonical name) (stored (Field.canonical name) value),
        version}) :=
      Version.leastCongr (fun f => memKnownInsert.symm) asked
    refine ⟨least, Version.notMixedOfHolds least.holds, fun key inside => ?_, ?_⟩
    · rcases Table.memKeysInsert.1 inside with rfl | before
      · exact ⟨Field.canonicalTwice name, other⟩
      · exact sound.canonical key before
    · intro key found same
      rw [Table.findInsert] at same
      split at same
      · next here =>
        cases Option.some.inj same
        rw [storedShape, here]
      · exact sound.shaped key found same

-- What setting a field keeps, setting several fields keeps, also where one of them fails.
theorem updateKeeps {P : Record → Prop}
    (keeps : ∀ r name value, P r → P (set r name value).record) {r : Record} (start : P r)
    (pairs : List (Text × Value)) : P (r.update pairs).record := by
  induction pairs generalizing r with
  | nil => exact start
  | cons pair rest ih =>
    obtain ⟨name, value⟩ := pair
    have next := keeps r name value start
    simp only [update]
    split
    · exact next
    · exact ih next

theorem readIntoKeeps {P : Record → Prop}
    (keeps : ∀ r name value, P r → P (set r name value).record) {r : Record} (start : P r)
    (input : Bytes) : P (r.readInto input).record := by
  simp only [readInto]
  split
  · exact start
  · split
    · exact start
    · exact updateKeeps keeps start _

theorem removeValue (r : Record) (name : Text) : (r.remove name).value = r.raw? name := by
  cases found : r.fields.find? (Field.canonical name) with
  | none => simp only [remove, raw?, found]
  | some value =>
    simp only [remove, raw?, found]
    split <;> rfl

theorem removed {r : Record} (sound : Sound r) (name : Text) :
    ∃ v, Version.inferNames (r.fields.erase (Field.canonical name)).keys = .ok v ∧
      r.remove name =
        ⟨{r with fields := r.fields.erase (Field.canonical name), version := v}, r.raw? name⟩ := by
  have fewer : ∀ f ∈ (r.fields.erase (Field.canonical name)).keys.filterMap Field.labelled?,
      f ∈ r.known := by
    intro f inside
    obtain ⟨key, kept, reached⟩ := List.mem_filterMap.1 inside
    exact List.mem_filterMap.2 ⟨key, (Table.memKeysErase.1 kept).2, reached⟩
  cases found : r.fields.find? (Field.canonical name) with
  | some value =>
    obtain ⟨v, fits⟩ := Version.inferOfHolds (Version.holdsMono fewer sound.least.holds)
    refine ⟨v, fits, ?_⟩
    have inferred : Version.inferNames (r.fields.erase (Field.canonical name)).keys = .ok v := fits
    simp only [remove, raw?, found, inferred]
  | none =>
    refine ⟨r.version, ?_, ?_⟩
    · rw [Table.eraseAbsent found]
      exact Version.inferOk.2 sound.least
    · rw [Table.eraseAbsent found]
      simp only [remove, raw?, found]

theorem removeSound {r : Record} (sound : Sound r) (name : Text) : Sound (r.remove name) := by
  obtain ⟨v, fits, same⟩ := removed sound name
  have least := Version.inferOk.1 fits
  rw [same]
  refine ⟨least, Version.notMixedOfHolds least.holds, fun key inside => ?_, ?_⟩
  · exact sound.canonical key (Table.memKeysErase.1 inside).2
  · intro key value found
    rw [Table.findErase] at found
    split at found
    · contradiction
    · exact sound.shaped key value found

theorem emptySound : Sound empty where
  least := ⟨nofun, fun w _ => by cases w <;> decide⟩
  unmixed := by rintro ⟨⟨f, none, _⟩, _⟩; cases none
  canonical := nofun
  shaped := nofun

theorem changeSound {r : Record} (sound : Sound r) (change : Change) :
    Sound (Change.apply r change) := by
  cases change with
  | set name value => exact setSound sound name value
  | update pairs =>
    exact updateKeeps (P := Sound) (fun _ name value now => setSound now name value) sound pairs
  | remove name => exact removeSound sound name
  | readInto input =>
    exact readIntoKeeps (P := Sound) (fun _ name value now => setSound now name value) sound input
  | platformDependent flag | context values | isPredicate judge =>
    exact ⟨sound.least, sound.unmixed, sound.canonical, sound.shaped⟩

theorem runSound {r : Record} (sound : Sound r) (changes : List Change) : Sound (run r changes) := by
  induction changes generalizing r with
  | nil => exact sound
  | cons change rest ih => exact ih (changeSound sound change)

theorem reachableSound {r : Record} (reachable : Reachable r) : Sound r := by
  obtain ⟨changes, rfl⟩ := reachable
  exact runSound emptySound changes

theorem knownWritten {r : Record} (sound : Sound r) {f : Field} (here : f ∈ r.known) :
    f ∈ r.keys.filter r.isWritten := by
  have label := memKnown.1 here
  have other : f ≠ .metadataVersion := fun same => (sound.canonical _ label).2 (same ▸ rfl)
  have stored : r.contains f.label := by
    simp [contains, Field.canonicalLabel, Table.memKeys.1 label]
  refine List.mem_filter.2 ⟨sound.least.holds f here, ?_⟩
  simp [isWritten, other, stored]

/-- However a record was changed, its version is the least that holds its fields, its fields are stored
under canonical names in the shape of their category and are written, and taking one out is never
refused a version. -/
theorem runInvariant (changes : List Change) :
    let r := run empty changes
    Sound r ∧ (∀ f ∈ r.known, f ∈ r.keys.filter r.isWritten) ∧
      ∀ name, ∃ v, Version.inferNames (r.fields.erase (Field.canonical name)).keys = .ok v ∧
        r.remove name =
          ⟨{r with fields := r.fields.erase (Field.canonical name), version := v}, r.raw? name⟩ := by
  intro r
  have sound : Sound r := runSound emptySound changes
  exact ⟨sound, fun f here => knownWritten sound here, fun name => removed sound name⟩

end Record
end PkgInfo
