import PkgInfo.Proofs.Document.Given
import PkgInfo.Proofs.Record.Order

/-! Reading a document into a record that holds fields already. Only what its headers supply is taken
over, field by field in the order of the declared version, and a field whose marker does not go with
the stored ones ends it there. The fields of one version never stand against each other, so what ends
it was stored before. -/
namespace PkgInfo
open Text Value

namespace Header

def Supplied (headers : List Header) (f : Field) : Prop :=
  if f.category.isList then valuesOf headers f.label ≠ []
  else ∃ t ∈ first? headers f.label, t ≠ unknown

instance (headers : List Header) (f : Field) : Decidable (Supplied headers f) :=
  inferInstanceAs (Decidable (ite _ _ _))

def suppliedFields (headers : List Header) (v : Version) : List Field :=
  (v.fields.filter (· ≠ .metadataVersion)).filter (Supplied headers ·)

theorem suppliedSome {headers : List Header} {f : Field} :
    Supplied headers f ↔ ∃ value, supplied? headers f = some value := by
  unfold Supplied supplied?
  split
  · cases valuesOf headers f.label <;> simp
  · cases first? headers f.label <;> simp

theorem versionOfText {text : Text} {v : Version} :
    Version.ofText? text = some v ↔ v.text = trim text := by
  unfold Version.ofText?
  constructor
  · intro found
    simpa using List.find?_some found
  · intro same
    rw [← same]
    cases v <;> decide

theorem declaredOk {headers : List Header} {v : Version} :
    declared headers = .ok v ↔
      ∃ text, first? headers Field.metadataVersion.label = some text ∧ v.text = trim text := by
  simp only [← versionOfText]
  unfold declared
  cases first? headers Field.metadataVersion.label with
  | none => simp
  | some text => cases known : Version.ofText? text <;> simp [known]

theorem declaredError {headers : List Header} {error : Error} :
    declared headers = .error error ↔
      (first? headers Field.metadataVersion.label = none ∧ error = .malformed ⟨1, .noVersion⟩) ∨
      ∃ text, first? headers Field.metadataVersion.label = some text ∧
        (∀ v : Version, v.text ≠ trim text) ∧ error = .unrecognizedVersion (trim text) := by
  simp only [ne_eq, ← versionOfText]
  unfold declared
  cases first? headers Field.metadataVersion.label with
  | none => simp [eq_comm]
  | some text => cases known : Version.ofText? text <;> simp [known, eq_comm]

end Header

namespace Version

theorem opposedOutside {v : Version} {f g : Field} (opposed : Opposed f g) (here : f ∈ v.fields) :
    g ∉ v.fields := by
  intro there
  have holds : v.Holds [f, g] := by simp [Holds, here, there]
  exact notMixedOfHolds holds (opposedMixed (by simp) (by simp) opposed)

end Version

namespace Record
open Version (Opposed)

structure Taken (headers : List Header) (fields : List Field) (r s : Record) : Prop where
  replaced : ∀ f ∈ fields, ∃ value,
    restored f ((Header.valuesOf headers f.label).map unfold) = some value ∧
      s.fields.find? f.label = some value
  kept : ∀ key, (∀ f ∈ fields, f.label ≠ key) → s.fields.find? key = r.fields.find? key

def Drawn (headers : List Header) (pairs : List (Text × Value)) : Prop :=
  ∀ p ∈ pairs, ∃ f, f ≠ .metadataVersion ∧ p.1 = f.label ∧ Header.supplied? headers f = some p.2

theorem suppliesDrawn (headers : List Header) (v : Version) :
    Drawn headers (Header.supplies headers v) := by
  intro p member
  obtain ⟨f, inside, given⟩ := List.mem_filterMap.1 member
  obtain ⟨value, supplied, rfl⟩ := Option.map_eq_some_iff.1 given
  exact ⟨f, (suppliesInside inside).2, rfl, supplied⟩

theorem reachedLabel {f : Field} (other : f ≠ .metadataVersion) : reached? f.label = some f := by
  simp [reached?, Field.canonicalLabel, Field.labelApart other, Field.labelledLabel]

theorem broughtSupplies (headers : List Header) (v : Version) :
    brought (Header.supplies headers v) = Header.suppliedFields headers v := by
  have others : ∀ f ∈ v.fields.filter (· ≠ .metadataVersion), f ≠ .metadataVersion :=
    fun f inside => (suppliesInside inside).2
  unfold Header.supplies Header.suppliedFields
  generalize v.fields.filter (· ≠ .metadataVersion) = fields at others ⊢
  induction fields with
  | nil => rfl
  | cons f rest ih =>
    have tail := ih fun g member => others g (List.mem_cons_of_mem f member)
    have reached := reachedLabel (others f List.mem_cons_self)
    cases supplied : Header.supplied? headers f with
    | none =>
      have away : ¬ Header.Supplied headers f := by simp [Header.suppliedSome, supplied]
      simp [supplied, away, tail]
    | some value =>
      have here : Header.Supplied headers f := Header.suppliedSome.2 ⟨value, supplied⟩
      simp [supplied, here, tail, broughtFirst, reached]

theorem drawnFirst {headers : List Header} {name : Text} {value : Value}
    {rest : List (Text × Value)} (drawn : Drawn headers ((name, value) :: rest)) :
    Drawn headers rest ∧ ∃ f, f ≠ .metadataVersion ∧ name = f.label ∧
      brought ((name, value) :: rest) = f :: brought rest ∧
      restored f ((Header.valuesOf headers f.label).map unfold) = some (stored f.label value) := by
  obtain ⟨f, other, rfl, supplied⟩ := drawn _ List.mem_cons_self
  refine ⟨fun p member => drawn p (List.mem_cons_of_mem _ member), f, other, rfl, ?_, ?_⟩
  · rw [broughtFirst, reachedLabel other]
    rfl
  · rw [← suppliedStored, supplied]
    rfl

theorem assignedApart {headers : List Header} {pairs : List (Text × Value)}
    (drawn : Drawn headers pairs) {key : Text} (apart : ∀ f ∈ brought pairs, f.label ≠ key) :
    assigned key pairs = none := by
  induction pairs with
  | nil => rfl
  | cons pair rest ih =>
    obtain ⟨name, value⟩ := pair
    obtain ⟨later, f, other, rfl, brings, _⟩ := drawnFirst drawn
    rw [brings] at apart
    have first := apart f List.mem_cons_self
    rw [assigned, ih later fun g member => apart g (List.mem_cons_of_mem f member)]
    simp [Field.canonicalLabel, first]

theorem assignedBrought {headers : List Header} {pairs : List (Text × Value)}
    (drawn : Drawn headers pairs) {f : Field} (here : f ∈ brought pairs) : ∃ value,
      restored f ((Header.valuesOf headers f.label).map unfold) = some value ∧
        assigned f.label pairs = some value := by
  induction pairs with
  | nil => contradiction
  | cons pair rest ih =>
    obtain ⟨name, value⟩ := pair
    obtain ⟨later, g, other, rfl, brings, given⟩ := drawnFirst drawn
    rw [assigned]
    by_cases again : f ∈ brought rest
    · obtain ⟨last, holds, found⟩ := ih later again
      exact ⟨last, holds, by rw [found]; rfl⟩
    · rw [brings] at here
      obtain rfl : f = g := (List.mem_cons.1 here).resolve_right again
      have gone : assigned f.label rest = none := assignedApart later fun h member same =>
        again (Field.labelInjective same ▸ member)
      refine ⟨_, given, ?_⟩
      simp [gone, Field.canonicalLabel, Field.labelApart other]

theorem updateTaken {headers : List Header} {pairs : List (Text × Value)}
    (drawn : Drawn headers pairs) {r : Record} (done : (r.update pairs).failure = none) :
    Taken headers (brought pairs) r (r.update pairs).record where
  replaced f here := by
    obtain ⟨value, given, found⟩ := assignedBrought drawn here
    exact ⟨value, given, by rw [updateFound done, found]; rfl⟩
  kept key apart := by
    rw [updateFound done, assignedApart drawn apart]
    rfl

theorem suppliedInside {headers : List Header} {v : Version} {f : Field}
    (member : f ∈ Header.suppliedFields headers v) : f ∈ v.fields :=
  (suppliesInside (List.mem_filter.1 member).1).1

theorem suppliedNodup (headers : List Header) (v : Version) :
    (Header.suppliedFields headers v).Nodup :=
  ((fieldsNodup v).filter _).filter _

-- The other fields of the version cannot be at odds with one of them, so what stops the reading was
-- stored before it began.
theorem supplyStopped {headers : List Header} {v : Version} {r : Record} (sound : Sound r)
    {error : Error} (failed : (r.update (Header.supplies headers v)).failure = some error) :
    ∃ before f after, Header.suppliedFields headers v = before ++ f :: after ∧
      (∃ cause, error = .versionConflict f.label cause) ∧ (∃ g ∈ r.known, Opposed f g) ∧
      (∀ h ∈ before, ∀ g ∈ r.known, ¬ Opposed h g) ∧
      Taken headers before r (r.update (Header.supplies headers v)).record := by
  obtain ⟨front, name, value, back, split, done, refused, record⟩ := updateFailure sound failed
  have drawn := suppliesDrawn headers v
  have fields := broughtSupplies headers v
  rw [split] at drawn fields
  have drawnFront : Drawn headers front := fun p member => drawn p (List.mem_append_left _ member)
  obtain ⟨_, f, other, rfl, brings, _⟩ :=
    drawnFirst fun p member => drawn p (List.mem_append_right front member)
  have shape : brought front ++ f :: brought back = Header.suppliedFields headers v := by
    rw [← brings, ← fields]
    exact (List.filterMap_append ..).symm
  have inside : ∀ g ∈ brought front ++ f :: brought back, g ∈ v.fields := fun g member =>
    suppliedInside (shape ▸ member)
  have knownFront := updateKnown done
  have soundFront := updateSound sound front
  refine ⟨brought front, f, brought back, shape.symm, ?_, ?_, ?_, ?_⟩
  · obtain ⟨_, cause, _, named⟩ := setFailure soundFront refused
    exact ⟨cause, by rw [named, Field.canonicalLabel]⟩
  · have blocked : ((r.update front).record.set f.label value).failure ≠ none := by
      rw [refused]
      exact Option.some_ne_none error
    obtain ⟨f', g, label, stored, opposed⟩ := (setRefused soundFront f.label value).1 blocked
    rw [Field.canonicalLabel] at label
    obtain rfl := Field.labelInjective label
    refine ⟨g, ?_, opposed⟩
    rcases List.mem_append.1 ((knownFront g).1 stored) with before | new
    · exact before
    · exact absurd (inside g (List.mem_append_left _ new))
        (Version.opposedOutside opposed (inside f' (by simp)))
  · intro h member g stored opposed
    have both := fun k => (knownFront k).2
    exact soundFront.unmixed (Version.opposedMixed (both h (List.mem_append_right _ member))
      (both g (List.mem_append_left _ stored)) opposed)
  · rw [record]
    exact updateTaken drawnFront done

theorem supplyRefused (headers : List Header) (v : Version) {r : Record} (sound : Sound r) :
    (r.update (Header.supplies headers v)).failure ≠ none ↔
      ∃ f ∈ Header.suppliedFields headers v, ∃ g ∈ r.known, Opposed f g := by
  constructor
  · intro failed
    obtain ⟨error, failure⟩ := Option.ne_none_iff_exists'.1 failed
    obtain ⟨before, f, after, shape, _, odds, _⟩ := supplyStopped sound failure
    exact ⟨f, by simp [shape], odds⟩
  · rintro ⟨f, member, g, stored, opposed⟩ done
    obtain ⟨w, holds⟩ := (updateFits sound _).1 done
    rw [broughtSupplies] at holds
    exact Version.notMixedOfHolds holds (Version.opposedMixed (List.mem_append_right _ member)
      (List.mem_append_left _ stored) opposed)

inductive Intake (r : Record) (input : Bytes) : Edit → Prop where
  | malformed {cause} (spoilt : Header.block input = .error cause) :
      Intake r input ⟨r, some (.malformed cause), []⟩
  | undeclared {headers error} (block : Header.block input = .ok headers)
      (undeclared : Header.declared headers = .error error) : Intake r input ⟨r, some error, []⟩
  | supplied {headers v} (block : Header.block input = .ok headers)
      (declared : Header.declared headers = .ok v) :
      Intake r input (r.update (Header.supplies headers v))

theorem intake (r : Record) (input : Bytes) : Intake r input (r.readInto input) := by
  unfold readInto
  cases block : Header.block input with
  | error cause => exact .malformed block
  | ok headers =>
    cases declared : Header.declared headers with
    | error error => simpa only [declared] using .undeclared block declared
    | ok v => simpa only [declared] using .supplied block declared

theorem readIntoSupplied {input : Bytes} {headers : List Header} {v : Version}
    (block : Header.block input = .ok headers) (declared : Header.declared headers = .ok v)
    (r : Record) : r.readInto input = r.update (Header.supplies headers v) := by
  simp only [readInto, block, declared]

theorem intakeFailure {r : Record} (sound : Sound r) {input : Bytes} {e : Edit}
    (outcome : Intake r input e) {error : Error} (failed : e.failure = some error) :
    (((∃ cause, error = .malformed cause) ∨ ∃ text, error = .unrecognizedVersion text) ∧
        e.record = r) ∨
      ∃ field cause, error = .versionConflict field cause := by
  cases outcome with
  | malformed spoilt =>
    obtain rfl := Option.some.inj failed
    exact .inl ⟨.inl ⟨_, rfl⟩, rfl⟩
  | undeclared block undeclared =>
    obtain rfl := Option.some.inj failed
    rcases Header.declaredError.1 undeclared with ⟨_, rfl⟩ | ⟨text, _, _, rfl⟩
    · exact .inl ⟨.inl ⟨_, rfl⟩, rfl⟩
    · exact .inl ⟨.inr ⟨text.trim, rfl⟩, rfl⟩
  | supplied block declared =>
    obtain ⟨_, f, _, _, ⟨cause, rfl⟩, _⟩ := supplyStopped sound failed
    exact .inr ⟨f.label, cause, rfl⟩

theorem conflictOutcome {r : Record} (sound : Sound r) (input : Bytes) :
    (∃ field cause, (r.readInto input).failure = some (.versionConflict field cause)) ↔
      ∃ headers v, Header.block input = .ok headers ∧ Header.declared headers = .ok v ∧
        ∃ f ∈ Header.suppliedFields headers v, ∃ g ∈ r.known, Opposed f g := by
  have outcome := intake r input
  generalize r.readInto input = e at outcome
  cases outcome with
  | malformed spoilt => simp [spoilt]
  | @undeclared headers error block undeclared =>
    rcases Header.declaredError.1 undeclared with ⟨_, rfl⟩ | ⟨_, _, _, rfl⟩ <;>
      simp [block, undeclared]
  | @supplied headers v block declared =>
    have refused := supplyRefused headers v sound
    simp only [block, declared, Except.ok.injEq, exists_and_left, exists_eq_left', ← refused]
    constructor
    · rintro ⟨field, cause, failed⟩
      rw [failed]
      exact Option.some_ne_none _
    · intro failed
      obtain ⟨error, failure⟩ := Option.ne_none_iff_exists'.1 failed
      obtain ⟨_, f, _, _, ⟨cause, rfl⟩, _⟩ := supplyStopped sound failure
      exact ⟨f.label, cause, failure⟩

/-- A document that cannot be read leaves the record as it is. One that can is taken over field by
field, up to the first field whose marker goes against a stored one; if there is none, all that it
supplies is there, and reading it again changes nothing. -/
theorem readIntoRecord {r : Record} (reachable : Reachable r) (input : Bytes) :
    let e := r.readInto input
    (∀ error, e.failure = some error →
        (((∃ cause, error = .malformed cause) ∨ ∃ text, error = .unrecognizedVersion text) ∧
            e.record = r) ∨
          ∃ field cause, error = .versionConflict field cause) ∧
      ((∃ field cause, e.failure = some (.versionConflict field cause)) ↔
        ∃ headers v, Header.block input = .ok headers ∧ Header.declared headers = .ok v ∧
          ∃ f ∈ Header.suppliedFields headers v, ∃ g ∈ r.known, Opposed f g) ∧
      (∀ field cause, e.failure = some (.versionConflict field cause) →
        ∃ headers v before f after,
          Header.block input = .ok headers ∧ Header.declared headers = .ok v ∧
          Header.suppliedFields headers v = before ++ f :: after ∧ f.label = field ∧
          (∃ g ∈ r.known, Opposed f g) ∧ (∀ h ∈ before, ∀ g ∈ r.known, ¬ Opposed h g) ∧
          Taken headers before r e.record ∧
          ∀ h ∈ f :: after, e.record.fields.find? h.label = r.fields.find? h.label) ∧
      (e.failure = none →
        ∃ headers v, Header.block input = .ok headers ∧ Header.declared headers = .ok v ∧
          Taken headers (Header.suppliedFields headers v) r e.record ∧
          (e.record.readInto input).failure = none ∧
          (e.record.readInto input).record = e.record) := by
  have sound := reachableSound reachable
  have conflict := conflictOutcome sound input
  have outcome := intake r input
  refine ⟨fun error => intakeFailure sound outcome, conflict, fun field cause failed => ?_,
    fun done => ?_⟩
  · obtain ⟨headers, v, block, declared, _⟩ := conflict.1 ⟨field, cause, failed⟩
    rw [readIntoSupplied block declared] at failed ⊢
    obtain ⟨before, f, after, shape, ⟨_, named⟩, odds, first, taken⟩ := supplyStopped sound failed
    obtain ⟨rfl, _⟩ := Error.versionConflict.inj named
    refine ⟨headers, v, before, f, after, block, declared, shape, rfl, odds, first, taken, ?_⟩
    intro h member
    refine taken.kept h.label fun g earlier same => ?_
    have distinct := suppliedNodup headers v
    rw [shape] at distinct
    exact (List.nodup_append.1 distinct).2.2 g earlier h member (Field.labelInjective same)
  · generalize r.readInto input = e at outcome done ⊢
    cases outcome with
    | malformed spoilt | undeclared block undeclared => contradiction
    | @supplied headers v block declared =>
      obtain ⟨again, same⟩ := updateTwice sound done
      refine ⟨headers, v, block, declared, ?_, ?_, ?_⟩
      · rw [← broughtSupplies]
        exact updateTaken (suppliesDrawn headers v) done
      · rw [readIntoSupplied block declared]
        exact again
      · rw [readIntoSupplied block declared]
        exact same

def modern : Bytes :=
  Utf8.encode
    "Metadata-Version: 1.2\nRequires-Dist: x\nName: demo\nmaintainer: ann\nLicense: MIT\n".toList

theorem readIntoLegacy :
    Reachable legacy ∧
      (legacy.readInto modern).failure =
        some (.versionConflict Field.maintainer.label ⟨.obsoletes, .maintainer⟩) ∧
      (legacy.readInto modern).record.fields.find? Field.name.label =
        some (.text "demo".toList) ∧
      ∃ headers v before f after,
        Header.suppliedFields headers v = before ++ f :: after ∧
          f.label = Field.maintainer.label ∧
          Taken headers before legacy (legacy.readInto modern).record := by
  have reachable : Reachable legacy := ⟨_, rfl⟩
  have failed : (legacy.readInto modern).failure =
      some (.versionConflict Field.maintainer.label ⟨.obsoletes, .maintainer⟩) := by
    decide +kernel
  obtain ⟨_, _, stopped, _⟩ := readIntoRecord reachable modern
  obtain ⟨headers, v, before, f, after, _, _, shape, label, _, _, taken, _⟩ := stopped _ _ failed
  exact ⟨reachable, failed, by decide +kernel, headers, v, before, f, after, shape, label, taken⟩

end Record
end PkgInfo
