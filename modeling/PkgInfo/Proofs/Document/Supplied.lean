import PkgInfo.Proofs.Record.Reachable
import PkgInfo.Proofs.Value.Folding

/-! Reading as look-ups. Fields that one version knows never conflict, so setting them from headers goes
through, and each of them then stands as its headers give it while all other keys are as before. -/
namespace PkgInfo
open Text Value PkgInfo.Field

namespace Record

def restored (f : Field) (texts : List Text) : Option Value :=
  if f.category.isList then
    if texts = [] then none
    else some (.list (if f.category = .elementList then splitCommas (joined [','] texts) else texts))
  else match texts with
    | [] => none
    | t :: _ => if t = unknown then none else some (.text t)

def arriving (headers : List Header) (fields : List Field) (key : Text) : Option Value :=
  (labelled? key).bind fun f =>
    if f ∈ fields then restored f ((Header.valuesOf headers f.label).map unfold) else none

theorem unknownFree : '\n' ∉ unknown := by decide

theorem storedText {f : Field} (single : f.category.isList = false) (t : Text) :
    stored f.label (.text t) = .text (if f = .description then unfold t else t) := by
  have shape : Value.coerce f.category (.text t) = .text t := by
    cases kind : f.category <;> simp_all [Value.coerce, Category.isList]
  simp only [stored, categoryOfLabel, shape, labelEq]

theorem storedList {f : Field} (several : f.category.isList) (items : List Text) :
    stored f.label (.list items) = .list items := by
  simp [stored, categoryOfLabel, Value.coerce, several]

theorem storedElements {f : Field} (elements : f.category = .elementList) (t : Text) :
    stored f.label (.text t) = .list (splitCommas t) := by
  simp [stored, categoryOfLabel, Value.coerce, elements]

theorem suppliedList (headers : List Header) {f : Field} (several : f.category.isList = true) :
    (Header.supplied? headers f).map (stored f.label) =
      restored f ((Header.valuesOf headers f.label).map unfold) := by
  have other : f ≠ .description := by rintro rfl; contradiction
  have each : Header.decoded f = unfold := by
    funext value
    simp [Header.decoded, other]
  simp only [Header.supplied?, restored, several, if_true, each]
  cases texts : (Header.valuesOf headers f.label).map unfold with
  | nil => rfl
  | cons first rest =>
    by_cases elements : f.category = .elementList
    · simp [elements, storedElements elements]
    · simp [elements, storedList several]

-- A description is unfolded when it is set and every other value before that, so once each.
theorem suppliedSingle (headers : List Header) {f : Field} (single : f.category.isList = false) :
    (Header.supplied? headers f).map (stored f.label) =
      restored f ((Header.valuesOf headers f.label).map unfold) := by
  simp only [Header.supplied?, restored, single, Bool.false_eq_true, if_false, Header.first?]
  cases values : Header.valuesOf headers f.label with
  | nil => rfl
  | cons value rest =>
    have same : unfold value = unknown ↔ value = unknown := unfoldEqFree unknownFree
    have once : (if f = .description then unfold (Header.decoded f value)
        else Header.decoded f value) = unfold value := by
      unfold Header.decoded
      split <;> rfl
    by_cases missing : value = unknown
    · simp [missing, unfoldFree unknownFree]
    · simp [missing, same, storedText single, once]

theorem suppliedStored (headers : List Header) (f : Field) :
    (Header.supplied? headers f).map (stored f.label) =
      restored f ((Header.valuesOf headers f.label).map unfold) := by
  cases shape : f.category.isList with
  | true => exact suppliedList headers shape
  | false => exact suppliedSingle headers shape

theorem holdsInsert {r : Record} {v : Version} (holds : v.Holds r.known) {f : Field}
    (inside : f ∈ v.fields) :
    v.Holds ((r.fields.keys ++ [f.label]).filterMap labelled?) := by
  intro g member
  simp only [List.filterMap_append, List.mem_append, List.filterMap_cons, labelledLabel,
    List.filterMap_nil, List.mem_singleton] at member
  rcases member with before | rfl
  · exact holds g before
  · exact inside

theorem setFitting {r : Record} {v : Version} (holds : v.Holds r.known) {f : Field}
    (inside : f ∈ v.fields) (other : f ≠ .metadataVersion) (value : Value) :
    (r.set f.label value).failure = none ∧ v.Holds (r.set f.label value).record.known ∧
      (r.set f.label value).record.fields = r.fields.insert f.label (stored f.label value) := by
  have outcome := setting r f.label value
  have fields := holdsInsert holds inside
  generalize r.set f.label value = e at outcome
  rw [← canonicalLabel f] at fields
  cases outcome with
  | ignored isVersion =>
    rw [canonicalLabel] at isVersion
    exact absurd isVersion (labelApart other)
  | refused _ conflict =>
    obtain ⟨w, fits⟩ := Version.inferOfHolds fields
    have inferred : Version.inferNames (r.fields.keys ++ [Field.canonical f.label]) = .ok w := fits
    rw [inferred] at conflict
    contradiction
  | done _ fits =>
    refine ⟨rfl, Version.holdsMono (fun g => memKnownInsert.1) fields, ?_⟩
    simp [canonicalLabel]

theorem arrivingLabel (headers : List Header) (fields : List Field) (f : Field) :
    arriving headers fields f.label =
      if f ∈ fields then (Header.supplied? headers f).map (stored f.label) else none := by
  simp [arriving, labelledLabel, suppliedStored]

theorem arrivingApart {headers : List Header} {f : Field} {key : Text} (apart : f.label ≠ key)
    (rest : List Field) : arriving headers (f :: rest) key = arriving headers rest key := by
  unfold arriving
  cases reached : labelled? key with
  | none => rfl
  | some g =>
    have other : g ≠ f := fun back => apart (back ▸ labelledSome reached)
    simp [other]

theorem arrivingNothing {headers : List Header} {f : Field}
    (nothing : Header.supplied? headers f = none) (rest : List Field) (key : Text) :
    arriving headers (f :: rest) key = arriving headers rest key := by
  by_cases here : f.label = key
  · rw [← here, arrivingLabel, arrivingLabel, nothing]
    simp
  · exact arrivingApart here rest

theorem arrivingFirst {headers : List Header} {f : Field} {value : Value}
    (supplied : Header.supplied? headers f = some value) (rest : List Field) (key : Text) :
    arriving headers (f :: rest) key =
      (arriving headers rest key).or (if f.label = key then some (stored f.label value) else none) := by
  by_cases here : f.label = key
  · rw [← here, arrivingLabel, arrivingLabel, supplied]
    by_cases again : f ∈ rest <;> simp [again]
  · rw [arrivingApart here, if_neg here, Option.or_none]

theorem updateSupplied (headers : List Header) {v : Version} {fields : List Field}
    (inside : ∀ f ∈ fields, f ∈ v.fields ∧ f ≠ .metadataVersion) {r : Record}
    (holds : v.Holds r.known) :
    let e := r.update (fields.filterMap fun f =>
      (Header.supplied? headers f).map fun value => (f.label, value))
    e.failure = none ∧
      ∀ key, e.record.fields.find? key = (arriving headers fields key).or (r.fields.find? key) := by
  induction fields generalizing r with
  | nil =>
    refine ⟨rfl, fun key => ?_⟩
    have none : arriving headers [] key = none := by simp [arriving]
    simp [none, update]
  | cons f rest ih =>
    obtain ⟨member, other⟩ := inside f List.mem_cons_self
    have later := fun g here => inside g (List.mem_cons_of_mem f here)
    cases supplied : Header.supplied? headers f with
    | none =>
      obtain ⟨done, found⟩ := ih later holds
      simp only [List.filterMap_cons, supplied, Option.map_none, arrivingNothing supplied]
      exact ⟨done, found⟩
    | some value =>
      obtain ⟨done, fits, put⟩ := setFitting holds member other value
      obtain ⟨through, found⟩ := ih later fits
      simp only [List.filterMap_cons, supplied, Option.map_some, update, done]
      refine ⟨through, fun key => (found key).trans ?_⟩
      rw [put, Table.findInsert, arrivingFirst supplied, Option.or_assoc]
      split <;> simp

theorem setOptions (r : Record) (name : Text) (value : Value) :
    (r.set name value).record.platformDependent = r.platformDependent := by
  obtain ⟨fields, version, same⟩ := setPart r name value
  rw [same]

theorem suppliesInside {v : Version} {f : Field}
    (member : f ∈ v.fields.filter (· ≠ .metadataVersion)) :
    f ∈ v.fields ∧ f ≠ .metadataVersion := by
  simpa using member

theorem readFound {input : Bytes} {headers : List Header} {v : Version}
    (block : Header.block input = .ok headers) (declared : Header.declared headers = .ok v) :
    (read input).failure = none ∧ (read input).record.platformDependent = false ∧
      ∀ key, (read input).record.fields.find? key =
        arriving headers (v.fields.filter (· ≠ .metadataVersion)) key := by
  have nothing : v.Holds empty.known := nofun
  obtain ⟨done, found⟩ := updateSupplied headers (fun f => suppliesInside) nothing
  have same : read input = empty.update (Header.supplies headers v) := by
    simp only [read, readInto, block, declared]
  have options := readIntoKeeps (P := fun r => r.platformDependent = false)
    (fun r name value now => (setOptions r name value).trans now) (r := empty) rfl input
  refine ⟨same ▸ done, options, fun key => ?_⟩
  rw [same]
  refine (found key).trans ?_
  have none : empty.fields.find? key = Option.none := rfl
  rw [none, Option.or_none]

theorem readAccepted {input : Bytes} (accepted : (read input).failure = none) :
    ∃ headers v, Header.block input = .ok headers ∧ Header.declared headers = .ok v := by
  simp only [read, readInto] at accepted
  cases block : Header.block input with
  | error cause => simp [block] at accepted
  | ok headers =>
    cases declared : Header.declared headers with
    | error cause => simp [block, declared] at accepted
    | ok v => exact ⟨headers, v, rfl, declared⟩

theorem readReachable (input : Bytes) : Reachable (read input).record :=
  ⟨[.readInto input], rfl⟩

end Record
end PkgInfo
