import PkgInfo.Proofs.Record.Conflict

/-! Setting several fields at once. Whether all of them can be set depends on which fields they are and
not on their order, since every version that knows some fields knows each of them. The last value for a
field stays, so with one value for each field the order does not show in the record either. -/
namespace PkgInfo

namespace Record
open Version (Fits)

def reached? (name : Text) : Option Field :=
  if Field.canonical name = Field.metadataVersion.label then none
  else Field.labelled? (Field.canonical name)

def brought (pairs : List (Text × Value)) : List Field := pairs.filterMap fun p => reached? p.1

theorem setFits {r : Record} (sound : Sound r) (name : Text) (value : Value) :
    (r.set name value).failure = none ↔ Fits (r.known ++ (reached? name).toList) := by
  have outcome := setting r name value
  generalize r.set name value = e at outcome
  cases outcome with
  | ignored isVersion =>
    have fits : Fits r.known := ⟨r.version, sound.least.holds⟩
    simp [reached?, isVersion, fits]
  | refused other conflict =>
    rw [inferSet] at conflict
    rw [reached?, if_neg other, Version.fitsInferred, conflict]
    simp
  | @done version other fits =>
    rw [inferSet] at fits
    rw [reached?, if_neg other, Version.fitsInferred, fits]
    simp

theorem setKnown {r : Record} {name : Text} {value : Value}
    (done : (r.set name value).failure = none) (f : Field) :
    f ∈ (r.set name value).record.known ↔ f ∈ r.known ++ (reached? name).toList := by
  have outcome := setting r name value
  generalize r.set name value = e at outcome done ⊢
  cases outcome with
  | ignored isVersion => simp [reached?, isVersion]
  | refused other conflict => contradiction
  | done other fits =>
    rw [memKnownInsert, reached?, if_neg other, List.filterMap_append]
    cases reached : Field.labelled? (Field.canonical name) <;> simp [known, reached]

theorem updateStopped {r : Record} {name : Text} {value : Value} {error : Error}
    (failed : (r.set name value).failure = some error) (rest : List (Text × Value)) :
    r.update ((name, value) :: rest) = r.set name value := by
  simp only [update, failed]

theorem updateOnward {r : Record} {name : Text} {value : Value}
    (done : (r.set name value).failure = none) (rest : List (Text × Value)) :
    r.update ((name, value) :: rest) =
      ((r.set name value).record.update rest).after (r.set name value).log := by
  simp only [update, done]

theorem broughtFirst (name : Text) (value : Value) (rest : List (Text × Value)) :
    brought ((name, value) :: rest) = (reached? name).toList ++ brought rest := by
  unfold brought
  cases reached : reached? name <;> simp [reached]

theorem updateFits {r : Record} (sound : Sound r) (pairs : List (Text × Value)) :
    (r.update pairs).failure = none ↔ Fits (r.known ++ brought pairs) := by
  induction pairs generalizing r with
  | nil =>
    have fits : Fits r.known := ⟨r.version, sound.least.holds⟩
    simp [update, brought, fits]
  | cons pair rest ih =>
    obtain ⟨name, value⟩ := pair
    have first := setFits sound name value
    rw [broughtFirst, ← List.append_assoc]
    cases outcome : (r.set name value).failure with
    | some error =>
      rw [updateStopped outcome, first]
      rw [outcome] at first
      have unfit : ¬ Fits (r.known ++ (reached? name).toList) := fun fits =>
        Option.some_ne_none error (first.2 fits)
      refine ⟨fun fits => absurd fits unfit, fun fits => absurd ?_ unfit⟩
      exact Version.fitsMono (fun f => List.mem_append_left _) fits
    | none =>
      rw [updateOnward outcome]
      refine (ih (setSound sound name value)).trans (Version.fitsCongr fun f => ?_)
      rw [List.mem_append, setKnown outcome, ← List.mem_append]

def assigned (key : Text) : List (Text × Value) → Option Value
  | [] => none
  | (name, value) :: rest =>
    (assigned key rest).or
      (if Field.canonical name = key ∧ key ≠ Field.metadataVersion.label then
        some (stored key value) else none)

theorem updateFound {r : Record} {pairs : List (Text × Value)}
    (done : (r.update pairs).failure = none) (key : Text) :
    (r.update pairs).record.fields.find? key = (assigned key pairs).or (r.fields.find? key) := by
  induction pairs generalizing r with
  | nil => simp [update, assigned]
  | cons pair rest ih =>
    obtain ⟨name, value⟩ := pair
    cases outcome : (r.set name value).failure with
    | some error =>
      rw [updateStopped outcome, outcome] at done
      contradiction
    | none =>
      rw [updateOnward outcome] at done ⊢
      have found := ih done
      refine found.trans ?_
      rw [setFound outcome, assigned, Option.or_assoc]
      split <;> simp

theorem assignedSwap {key name name' : Text} {value value' : Value}
    (apart : Field.canonical name ≠ Field.canonical name') (rest : List (Text × Value)) :
    assigned key ((name, value) :: (name', value') :: rest) =
      assigned key ((name', value') :: (name, value) :: rest) := by
  simp only [assigned, Option.or_assoc]
  by_cases here : Field.canonical name = key
  · have other : Field.canonical name' ≠ key := fun there => apart (here.trans there.symm)
    simp [other]
  · simp [here]

theorem assignedPerm {pairs pairs' : List (Text × Value)} (same : pairs.Perm pairs')
    (distinct : (pairs.map fun p => Field.canonical p.1).Nodup) (key : Text) :
    assigned key pairs = assigned key pairs' := by
  induction same with
  | nil => rfl
  | cons pair _ ih =>
    rw [List.map_cons, List.nodup_cons] at distinct
    rw [assigned, assigned, ih distinct.2]
  | swap first second rest =>
    rw [List.map_cons, List.nodup_cons] at distinct
    have apart : Field.canonical second.1 ≠ Field.canonical first.1 := fun back =>
      distinct.1 (by simp [back])
    exact assignedSwap apart rest
  | trans one _ ih ih' =>
    rw [ih distinct, ih' ((one.map _).nodup_iff.1 distinct)]

theorem updatePart (r : Record) (pairs : List (Text × Value)) :
    ∃ fields version, (r.update pairs).record = {r with fields, version} := by
  refine updateKeeps (P := fun s => ∃ fields version, s = {r with fields, version}) ?_
    ⟨r.fields, r.version, rfl⟩ pairs
  rintro _ name value ⟨fields, version, rfl⟩
  exact setPart _ name value

theorem versionDetermined {r s : Record} (left : Sound r) (right : Sound s)
    (fields : r.fields = s.fields) : r.version = s.version := by
  refine Version.leastUnique left.least ?_
  rw [known, fields]
  exact right.least

theorem updateSound {r : Record} (sound : Sound r) (pairs : List (Text × Value)) :
    Sound (r.update pairs).record := changeSound sound (.update pairs)

theorem updateKnown {r : Record} {pairs : List (Text × Value)}
    (done : (r.update pairs).failure = none) (f : Field) :
    f ∈ (r.update pairs).record.known ↔ f ∈ r.known ++ brought pairs := by
  induction pairs generalizing r with
  | nil => simp [update, brought]
  | cons pair rest ih =>
    obtain ⟨name, value⟩ := pair
    cases outcome : (r.set name value).failure with
    | some error =>
      rw [updateStopped outcome, outcome] at done
      contradiction
    | none =>
      rw [updateOnward outcome] at done ⊢
      have later := ih done
      rw [broughtFirst, ← List.append_assoc, List.mem_append, ← setKnown outcome, ← List.mem_append]
      exact later

theorem updateFailure {r : Record} (sound : Sound r) {pairs : List (Text × Value)} {error : Error}
    (failed : (r.update pairs).failure = some error) :
    ∃ before name value after, pairs = before ++ (name, value) :: after ∧
      (r.update before).failure = none ∧
      ((r.update before).record.set name value).failure = some error ∧
      (r.update pairs).record = (r.update before).record := by
  induction pairs generalizing r with
  | nil => contradiction
  | cons pair rest ih =>
    obtain ⟨name, value⟩ := pair
    cases outcome : (r.set name value).failure with
    | some cause =>
      rw [updateStopped outcome] at failed ⊢
      exact ⟨[], name, value, rest, rfl, rfl, failed, (setFailure sound outcome).1⟩
    | none =>
      rw [updateOnward outcome] at failed ⊢
      obtain ⟨before, name', value', after, split, done, refused, record⟩ :=
        ih (setSound sound name value) failed
      refine ⟨(name, value) :: before, name', value', after, by rw [split]; rfl, ?_⟩
      rw [updateOnward outcome]
      exact ⟨done, refused, record⟩

theorem updateTwice {r : Record} (sound : Sound r) {pairs : List (Text × Value)}
    (done : (r.update pairs).failure = none) :
    ((r.update pairs).record.update pairs).failure = none ∧
      ((r.update pairs).record.update pairs).record = (r.update pairs).record := by
  have once := updateSound sound pairs
  have known := updateKnown done
  have found := updateFound done
  generalize (r.update pairs).record = s at *
  have again : (s.update pairs).failure = none := by
    rw [updateFits once]
    refine (Version.fitsCongr fun f => ?_).2 ⟨s.version, once.least.holds⟩
    rw [List.mem_append, known, List.mem_append, or_assoc, or_self]
  refine ⟨again, ?_⟩
  have fields : (s.update pairs).record.fields = s.fields := Table.eqOfFind fun key => by
    rw [updateFound again, found]
    cases assigned key pairs <;> rfl
  have version := versionDetermined (updateSound once pairs) once fields
  obtain ⟨table, v, part⟩ := updatePart s pairs
  rw [part] at fields version ⊢
  obtain rfl : table = s.fields := fields
  obtain rfl : v = s.version := version
  rfl

/-- With one value for each field, the order in which fields are set decides nothing: neither whether
all of them can be set nor the record that comes of it. -/
theorem updateOrder {r : Record} (reachable : Reachable r) {pairs pairs' : List (Text × Value)}
    (same : pairs.Perm pairs') (distinct : (pairs.map fun p => Field.canonical p.1).Nodup) :
    ((r.update pairs).failure = none ↔ (r.update pairs').failure = none) ∧
      ((r.update pairs).failure = none → (r.update pairs).record = (r.update pairs').record) := by
  have sound := reachableSound reachable
  have brings : (brought pairs).Perm (brought pairs') := same.filterMap _
  have fits : (r.update pairs).failure = none ↔ (r.update pairs').failure = none := by
    rw [updateFits sound, updateFits sound]
    exact Version.fitsCongr fun f => (brings.append_left r.known).mem_iff
  refine ⟨fits, fun done => ?_⟩
  have fields : (r.update pairs).record.fields = (r.update pairs').record.fields :=
    Table.eqOfFind fun key => by
      rw [updateFound done, updateFound (fits.1 done), assignedPerm same distinct]
  have version : (r.update pairs).record.version = (r.update pairs').record.version :=
    versionDetermined (changeSound sound (.update pairs)) (changeSound sound (.update pairs')) fields
  obtain ⟨left, v, part⟩ := updatePart r pairs
  obtain ⟨right, w, part'⟩ := updatePart r pairs'
  rw [part, part'] at fields version ⊢
  obtain rfl : left = right := fields
  obtain rfl : v = w := version
  rfl

def shuffled : List (Text × Value) :=
  [("requires_dist".toList, .text "alpha (>=1.0, <2.0), beta".toList),
    ("Description".toList, .text "one\n       |two".toList),
    ("X-Extra".toList, .list ["gamma".toList]), ("classifier".toList, .list [])]

theorem updateOrderShuffled :
    (legacy.update shuffled).failure ≠ none ∧ (legacy.update shuffled.reverse).failure ≠ none ∧
      (empty.update shuffled).record = (empty.update shuffled.reverse).record := by
  have distinct : (shuffled.map fun p => Field.canonical p.1).Nodup := by decide +kernel
  have same : shuffled.Perm shuffled.reverse := (List.reverse_perm shuffled).symm
  have refused : (legacy.update shuffled).failure ≠ none := by decide +kernel
  obtain ⟨legacyAlike, _⟩ := updateOrder (r := legacy) ⟨_, rfl⟩ same distinct
  obtain ⟨_, emptyAlike⟩ := updateOrder (r := empty) ⟨[], rfl⟩ same distinct
  exact ⟨refused, fun done => refused (legacyAlike.2 done), emptyAlike (by decide +kernel)⟩

end Record
end PkgInfo
