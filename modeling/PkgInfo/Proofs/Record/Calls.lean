import PkgInfo.Proofs.Record.Conflict

/-! The single calls that set a field, in all that is done to a record: each change makes them one after
another and logs what they log. Whatever a record holds was put there by the last call that stored
something under its key. -/
namespace PkgInfo

namespace Record

structure Call where
  record : Record
  name : Text
  value : Value

def Call.edit (c : Call) : Edit := c.record.set c.name c.value

def Call.stores (c : Call) (key : Text) : Bool :=
  Field.canonical c.name = key ∧ key ≠ Field.metadataVersion.label ∧ c.edit.failure.isNone

def lastStoring? (calls : List Call) (key : Text) : Option Call :=
  (calls.filter (·.stores key)).getLast?

def updateCalls (r : Record) : List (Text × Value) → List Call
  | [] => []
  | (name, value) :: rest =>
    ⟨r, name, value⟩ ::
      match (r.set name value).failure with
      | some _ => []
      | none => updateCalls (r.set name value).record rest

def readPairs (input : Bytes) : List (Text × Value) :=
  match Header.block input with
  | .error _ => []
  | .ok headers =>
    match Header.declared headers with
    | .error _ => []
    | .ok version => Header.supplies headers version

def Change.calls (r : Record) : Change → List Call
  | .set name value => [⟨r, name, value⟩]
  | .update pairs => updateCalls r pairs
  | .readInto input => updateCalls r (readPairs input)
  | .remove _ | .platformDependent _ | .context _ | .isPredicate _ => []

def calls (r : Record) : List Change → List Call
  | [] => []
  | change :: rest => change.calls r ++ calls (change.apply r) rest

theorem readIntoPairs (r : Record) (input : Bytes) :
    (r.readInto input).record = (r.update (readPairs input)).record := by
  unfold readInto readPairs
  cases Header.block input with
  | error cause => rfl
  | ok headers =>
    simp only
    cases Header.declared headers with
    | error cause => rfl
    | ok version => rfl

theorem removeFields (r : Record) (name : Text) : ∃ version,
    (r.remove name).record = {r with fields := r.fields.erase (Field.canonical name), version} := by
  cases found : r.fields.find? (Field.canonical name) with
  | none =>
    simp only [remove, found, Table.eraseAbsent found]
    exact ⟨r.version, rfl⟩
  | some value =>
    simp only [remove, found]
    split
    · next version _ => exact ⟨version, rfl⟩
    · exact ⟨r.version, rfl⟩

theorem storesIff {c : Call} {key : Text} : c.stores key = true ↔
    Field.canonical c.name = key ∧ key ≠ Field.metadataVersion.label ∧ c.edit.failure = none := by
  simp [Call.stores]

theorem storesNothing {c : Call} {key : Text} (other : c.stores key = false) :
    c.edit.record.fields.find? key = c.record.fields.find? key := by
  cases failed : c.edit.failure with
  | none =>
    rw [Call.edit] at failed ⊢
    rw [setFound failed, if_neg]
    intro ⟨here, known⟩
    rw [storesIff.2 ⟨here, known, failed⟩] at other
    contradiction
  | some error =>
    have outcome := setting c.record c.name c.value
    rw [Call.edit] at failed ⊢
    generalize c.record.set c.name c.value = e at outcome failed ⊢
    cases outcome with
    | ignored isVersion => rfl
    | refused known conflict => rfl
    | done known fits => contradiction

theorem lastStoringNext (past : List Call) (c : Call) (key : Text) :
    lastStoring? (past ++ [c]) key = if c.stores key then some c else lastStoring? past key := by
  cases stores : c.stores key <;> simp [lastStoring?, List.filter_append, stores]

theorem storingLog {c : Call} {key : Text} (stores : c.stores key = true) :
    c.edit.log = c.record.complaints key (stored key c.value) := by
  obtain ⟨rfl, known, done⟩ := storesIff.1 stores
  have outcome := setting c.record c.name c.value
  rw [Call.edit] at done ⊢
  generalize c.record.set c.name c.value = e at outcome done ⊢
  cases outcome with
  | ignored isVersion => exact absurd isVersion known
  | refused other conflict => contradiction
  | done other fits => rfl

structure Accounted (judge : Text → Bool) (past : List Call) (r : Record) : Prop where
  judged : r.isPredicate = judge
  stored : ∀ key value, r.fields.find? key = some value → ∃ c, lastStoring? past key = some c ∧
    c.stores key = true ∧ c.record.isPredicate = judge ∧ Record.stored key c.value = value

section
variable {judge : Text → Bool} {past : List Call} {r : Record}

theorem setAccounted (accounted : Accounted judge past r) (name : Text) (value : Value) :
    Accounted judge (past ++ [⟨r, name, value⟩]) (r.set name value).record := by
  constructor
  · obtain ⟨fields, version, same⟩ := setPart r name value
    rw [same]
    exact accounted.judged
  · intro key kept found
    rw [lastStoringNext]
    cases stores : Call.stores ⟨r, name, value⟩ key with
    | true =>
      obtain ⟨here, known, done⟩ := storesIff.1 stores
      rw [setFound done, if_pos ⟨here, known⟩] at found
      exact ⟨⟨r, name, value⟩, rfl, stores, accounted.judged, Option.some.inj found⟩
    | false =>
      have before := storesNothing stores
      rw [Call.edit, found] at before
      exact accounted.stored key kept before.symm

theorem updateAccounted (accounted : Accounted judge past r) (pairs : List (Text × Value)) :
    Accounted judge (past ++ updateCalls r pairs) (r.update pairs).record := by
  induction pairs generalizing past r with
  | nil =>
    rw [updateCalls, List.append_nil]
    exact accounted
  | cons pair rest ih =>
    obtain ⟨name, value⟩ := pair
    have next := setAccounted accounted name value
    simp only [update, updateCalls]
    rw [List.append_cons]
    cases (r.set name value).failure with
    | some error => simpa using next
    | none => exact ih next

theorem changeAccounted (accounted : Accounted judge past r) {change : Change}
    (steady : ∀ other, change ≠ .isPredicate other) :
    Accounted judge (past ++ change.calls r) (change.apply r) := by
  cases change with
  | set name value => exact setAccounted accounted name value
  | update pairs => exact updateAccounted accounted pairs
  | readInto input =>
    rw [Change.apply, readIntoPairs r input]
    exact updateAccounted accounted (readPairs input)
  | remove name =>
    obtain ⟨version, same⟩ := removeFields r name
    rw [Change.calls, List.append_nil, Change.apply, same]
    refine ⟨accounted.judged, fun key value found => accounted.stored key value ?_⟩
    rw [Table.findErase] at found
    split at found
    · contradiction
    · exact found
  | platformDependent flag | context values =>
    rw [Change.calls, List.append_nil]
    exact ⟨accounted.judged, accounted.stored⟩
  | isPredicate other => exact absurd rfl (steady other)

theorem runAccounted (accounted : Accounted judge past r) {changes : List Change}
    (steady : ∀ change ∈ changes, ∀ other, change ≠ .isPredicate other) :
    Accounted judge (past ++ calls r changes) (run r changes) := by
  induction changes generalizing past r with
  | nil =>
    rw [calls, List.append_nil]
    exact accounted
  | cons change rest ih =>
    obtain ⟨first, later⟩ := List.forall_mem_cons.1 steady
    rw [calls, ← List.append_assoc]
    exact ih (changeAccounted accounted first) later

end
end Record
end PkgInfo
