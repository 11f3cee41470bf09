import PkgInfo.Proofs.Document.RoundTrip

/-! The description of a record that is written and read again. Folding keeps its lines, whatever they
start with and also where they are empty; but a line ends for a reader where its carriage return
begins, so the description comes back with one carriage return less in front of each line feed and at
its end. -/
namespace PkgInfo
open Text Value

namespace Record

theorem everyDescription (v : Version) : Field.description ∈ v.fields := by cases v <;> decide

theorem setDescription {r : Record} (sound : Sound r) (d : Text) :
    (r.set Field.description.label (.text d)).failure = none ∧
      (r.set Field.description.label (.text d)).record.fields.find? Field.description.label =
        some (.text (unfold d)) := by
  obtain ⟨done, _, put⟩ := setFitting sound.least.holds (everyDescription r.version) (by decide)
    (.text d)
  rw [storedText rfl, if_pos rfl] at put
  exact ⟨done, by rw [put, Table.findInsert, if_pos rfl]⟩

section
variable [Host]

theorem getDescription (r : Record) :
    (r.get Field.description.label).value =
      (r.fields.find? Field.description.label).getD (.text unknown) := by
  have apart : Field.description.label ≠ Field.metadataVersion.label := Field.labelApart (by decide)
  have prose : Field.categoryOf Field.description.label = .freeText :=
    Field.categoryOfLabel .description
  cases stored : r.fields.find? Field.description.label <;>
    simp [get, Field.canonicalLabel, apart, stored, screens, prose, Field.Category.isMarked,
      Value.default, Field.Category.isList]

theorem textDescription (r : Record) :
    (r.getText Field.description.label).value =
      ((r.fields.find? Field.description.label).getD (.text unknown)).asText := by
  rw [← getDescription]
  rfl

theorem givenDescription {r : Record} {t : Text}
    (stored : r.fields.find? Field.description.label = some (.text t)) :
    r.given .description = [t] := by
  rw [given, getDescription, stored]
  rfl

theorem rereadDescription {r : Record} {t : Text}
    (stored : r.fields.find? Field.description.label = some (.text t)) :
    ((read (Utf8.encode r.render.value)).record.getText Field.description.label).value =
      readBack t := by
  have found := rereadLabel r (everyDescription r.version) (by decide)
  rw [givenDescription stored, List.map_singleton, restoredSingle rfl] at found
  rw [textDescription, found]
  split
  · next missing =>
    rw [missing]
    rfl
  · rfl

/-- A description that is set, written and read again has lost one carriage return before each line
feed and one at its end, and nothing else: it is the same text exactly where it has none there. -/
theorem descriptionReread {r : Record} (reachable : Reachable r) (d : Text) :
    let e := r.set Field.description.label (.text d)
    let again := read (Utf8.encode e.record.render.value)
    e.failure = none ∧ again.failure = none ∧
      (e.record.getText Field.description.label).value = unfold d ∧
      (again.record.getText Field.description.label).value = readBack (unfold d) ∧
      ((again.record.getText Field.description.label).value =
        (e.record.getText Field.description.label).value ↔ Settled (unfold d)) := by
  obtain ⟨done, stored⟩ := setDescription (reachableSound reachable) d
  dsimp only
  generalize r.set Field.description.label (.text d) = e at done stored ⊢
  have before : (e.record.getText Field.description.label).value = unfold d := by
    rw [textDescription, stored]
    rfl
  have after := rereadDescription stored
  exact ⟨done, (rereadFound e.record).1, before, after, by rw [before, after, settledIff]⟩

end

def barredProse : Text := "a\r:\n\n       | b\n       |       |c\n".toList

attribute [local instance] Host.linux

theorem descriptionRereadBarred :
    let e := crossPlatform.set Field.description.label (.text barredProse)
    Reachable crossPlatform ∧
      ((read (Utf8.encode e.record.render.value)).record.getText Field.description.label).value =
        "a\r:\n\n b\n       |c\n".toList := by
  have reachable : Reachable crossPlatform := ⟨_, rfl⟩
  have unfolded : readBack (unfold barredProse) = "a\r:\n\n b\n       |c\n".toList := by decide
  obtain ⟨_, _, _, back, _⟩ := descriptionReread reachable barredProse
  rw [unfolded] at back
  exact ⟨reachable, back⟩

theorem descriptionReturnLost :
    ¬ ∀ (r : Record) (d : Text), Reachable r →
      let e := r.set Field.description.label (.text d)
      ((read (Utf8.encode e.record.render.value)).record.getText Field.description.label).value =
        (e.record.getText Field.description.label).value := by
  intro kept
  have same := kept empty "a\r\nb".toList ⟨[], rfl⟩
  revert same
  decide +kernel

end Record
end PkgInfo
