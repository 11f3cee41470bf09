import PkgInfo.Proofs.Document.Intake

/-! Documents read on their own. A record that is empty has nothing that a field could stand against, so
only the document itself can be at fault, and what is read are fields of the version it declares. -/
namespace PkgInfo
open Text

namespace Record

theorem freshFailure (input : Bytes) (error : Error) :
    (read input).failure = some error ↔
      (∃ cause, Header.block input = .error cause ∧ error = .malformed cause) ∨
      ∃ headers, Header.block input = .ok headers ∧ Header.declared headers = .error error := by
  constructor
  · intro failed
    have outcome : Intake empty input (read input) := intake empty input
    generalize read input = e at outcome failed
    cases outcome with
    | malformed spoilt => exact .inl ⟨_, spoilt, (Option.some.inj failed).symm⟩
    | undeclared block undeclared =>
      obtain rfl := Option.some.inj failed
      exact .inr ⟨_, block, undeclared⟩
    | supplied block declared =>
      obtain ⟨_, f, _, _, _, ⟨g, none, _⟩, _⟩ := supplyStopped emptySound failed
      contradiction
  · unfold read readInto
    rintro (⟨cause, spoilt, rfl⟩ | ⟨headers, block, undeclared⟩)
    · simp only [spoilt]
    · simp only [block, undeclared]

theorem takenStored {headers : List Header} {fields : List Field} {r : Record}
    (taken : Taken headers fields empty r) {key : Text} (stored : key ∈ r.fields.keys) :
    ∃ f ∈ fields, f.label = key := by
  by_cases here : ∃ f ∈ fields, f.label = key
  · exact here
  · have unset := taken.kept key fun f member same => here ⟨f, member, same⟩
    rw [Table.memKeys, Table.contains, unset] at stored
    contradiction

/-- A document on its own is refused only if its headers are not in order or it declares no version
that there is. What is read are fields of the declared version, so the version that they call for is
no later one. -/
theorem readFresh (input : Bytes) :
    let e := read input
    (∀ error, e.failure = some error ↔
        (∃ cause, Header.block input = .error cause ∧ error = .malformed cause) ∨
        ∃ headers, Header.block input = .ok headers ∧
          ((Header.first? headers Field.metadataVersion.label = none ∧
              error = .malformed ⟨1, .noVersion⟩) ∨
            ∃ text, Header.first? headers Field.metadataVersion.label = some text ∧
              (∀ v : Version, v.text ≠ trim text) ∧ error = .unrecognizedVersion (trim text))) ∧
      (∀ field cause, e.failure ≠ some (.versionConflict field cause)) ∧
      (e.failure = none →
        ∃ headers text v, Header.block input = .ok headers ∧
          Header.first? headers Field.metadataVersion.label = some text ∧
          v.text = trim text ∧ (∀ key ∈ e.record.fields.keys, ∃ f ∈ v.fields, f.label = key) ∧
          e.record.version.Least e.record.known ∧ e.record.version ≤ v) := by
  have sound := reachableSound (readReachable input)
  have failure := freshFailure input
  simp only [Header.declaredError] at failure
  refine ⟨failure, fun field cause failed => ?_, fun done => ?_⟩
  · rcases (failure _).1 failed with ⟨_, _, other⟩ | ⟨_, _, ⟨_, other⟩ | ⟨_, _, _, other⟩⟩ <;>
      contradiction
  · obtain ⟨headers, v, block, declared⟩ := readAccepted done
    obtain ⟨text, first, same⟩ := Header.declaredOk.1 declared
    have taken : Taken headers (Header.suppliedFields headers v) empty (read input).record := by
      rw [read, readIntoSupplied block declared] at done ⊢
      rw [← broughtSupplies]
      exact updateTaken (suppliesDrawn headers v) done
    have inside : ∀ key ∈ (read input).record.fields.keys, ∃ f ∈ v.fields, f.label = key := by
      intro key stored
      obtain ⟨f, member, label⟩ := takenStored taken stored
      exact ⟨f, suppliedInside member, label⟩
    refine ⟨headers, text, v, block, first, same, inside, sound.least, sound.least.oldest v ?_⟩
    intro f stored
    obtain ⟨g, member, label⟩ := inside f.label (memKnown.1 stored)
    exact Field.labelInjective label ▸ member

end Record
end PkgInfo
