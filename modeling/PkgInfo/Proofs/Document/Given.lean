import PkgInfo.Proofs.Document.Supplied
import PkgInfo.Proofs.Header.Written

/-! What a document gives for each field, and what a reader of it finds. Every text of every field
comes back as the value of one header under the field's name, in the order of the fields, so no text
can end the block, start a header of its own or join its neighbour. -/
namespace PkgInfo
open Text Value

namespace Record

def textsOf (f : Field) : Value → List Text
  | .text t => [t]
  | .list items =>
    if f = .keywords then if items = [] then [] else [joined [','] items]
    else items

theorem elementsOnly {f : Field} : f.category = .elementList ↔ f = .keywords := by
  cases f <;> decide

theorem headersOfTexts (f : Field) (value : Value) :
    headersOf f value = (textsOf f value).map fun t => ⟨f.label, t⟩ := by
  cases value with
  | text t => rfl
  | list items =>
    simp only [headersOf, textsOf, elementsOnly]
    split
    · split <;> rfl
    · rfl

theorem filterGroups {α β : Type} (fields : List α) (keep : α → Bool) (group : α → List β) :
    (fields.filter keep).flatMap group = fields.flatMap fun f => if keep f then group f else [] := by
  induction fields with
  | nil => rfl
  | cons f rest ih => by_cases kept : keep f <;> simp [kept, ih]

theorem writtenSplit (r : Record) (fields : List Field) :
    fields.filter r.isWritten = (fields.filter (· ≠ .metadataVersion)).filter r.isWritten := by
  rw [List.filter_filter]
  refine List.filter_congr fun f _ => ?_
  unfold isWritten
  by_cases same : f = .metadataVersion <;> simp [same]

theorem versionTextKept (v : Version) : readBack (fold v.text) = v.text := by cases v <;> decide

theorem fieldsNodup (v : Version) : v.fields.Nodup := by cases v <;> decide

theorem valuesOfGroups (texts : Field → List Text) {fields : List Field} (nodup : fields.Nodup)
    (f : Field) :
    Header.valuesOf (fields.flatMap fun g => (texts g).map fun t => ⟨g.label, t⟩) f.label =
      if f ∈ fields then texts f else [] := by
  induction fields with
  | nil => rfl
  | cons g rest ih =>
    obtain ⟨fresh, distinct⟩ := List.nodup_cons.1 nodup
    have tail := ih distinct
    simp only [Header.valuesOf] at tail
    simp only [Header.valuesOf, List.flatMap_cons, List.filter_append, List.map_append, tail,
      List.filter_map, Function.comp_def, Field.sameLettersLabel, List.map_map]
    by_cases same : f = g
    · subst same
      simp [fresh]
    · simp [same, Ne.symm same]

variable [Host]

def given (r : Record) (f : Field) : List Text :=
  if f = .downloadUrl ∧ r.fields.find? f.label = none then []
  else textsOf f (r.get f.label).value

def received (r : Record) : List Header :=
  ⟨Field.metadataVersion.label, r.version.text⟩ ::
    (r.version.fields.filter (· ≠ .metadataVersion)).flatMap fun f =>
      (r.given f).map fun t => ⟨f.label, readBack (fold t)⟩

theorem headersGiven (r : Record) {f : Field} (other : f ≠ .metadataVersion) :
    (if r.isWritten f then headersOf f (r.get f.label).value else []) =
      (r.given f).map fun t => ⟨f.label, t⟩ := by
  have apart := Field.labelApart other
  have stored : r.contains f.label = r.fields.contains f.label := by
    simp [contains, Field.canonicalLabel, apart]
  rw [headersOfTexts]
  unfold given isWritten
  rw [stored]
  by_cases address : f = .downloadUrl
  · subst address
    cases found : r.fields.find? Field.downloadUrl.label <;> simp [Table.contains, found]
  · simp [address, other]

theorem groupsGiven (r : Record) {fields : List Field} (other : ∀ f ∈ fields, f ≠ .metadataVersion) :
    (fields.filter r.isWritten).flatMap (fun f => headersOf f (r.get f.label).value) =
      fields.flatMap fun f => (r.given f).map fun t => ⟨f.label, t⟩ := by
  rw [filterGroups]
  induction fields with
  | nil => rfl
  | cons f rest ih =>
    have tail := ih fun g member => other g (List.mem_cons_of_mem f member)
    rw [List.flatMap_cons, List.flatMap_cons, headersGiven r (other f List.mem_cons_self), tail]

theorem headersWritten (r : Record) :
    r.headers.value = ⟨Field.metadataVersion.label, r.version.text⟩ ::
      (r.version.fields.filter (· ≠ .metadataVersion)).flatMap fun f =>
        (r.given f).map fun t => ⟨f.label, t⟩ := by
  have others : ∀ f ∈ r.version.fields.filter (· ≠ .metadataVersion), f ≠ .metadataVersion :=
    fun f member => (suppliesInside member).2
  simp only [headers, Logged.valueBind, Logged.valuePure, Logged.valueEach, keys]
  rw [← List.flatMap_def, writtenSplit, groupsGiven r others]

theorem renderWritten (r : Record) : r.render.value = r.headers.value.flatMap Header.line := rfl

theorem blockReceived (r : Record) : Header.block (Utf8.encode r.render.value) = .ok r.received := by
  have plain : ∀ h ∈ r.headers.value, Header.Plain h.name := by
    intro h member
    rw [headersWritten] at member
    rcases List.mem_cons.1 member with rfl | later
    · exact Header.labelPlain .metadataVersion
    · obtain ⟨f, _, inside⟩ := List.mem_flatMap.1 later
      obtain ⟨t, _, rfl⟩ := List.mem_map.1 inside
      exact Header.labelPlain f
  rw [renderWritten, Header.blockWritten plain, headersWritten, received]
  simp [List.map_flatMap, versionTextKept, Function.comp_def]

theorem declaredReceived (r : Record) : Header.declared r.received = .ok r.version := by
  have kept : Version.ofText? r.version.text = some r.version := by
    cases r.version <;> decide
  simp [Header.declared, Header.first?, Header.valuesOf, received, Text.SameLetters, kept]

theorem valuesReceived (r : Record) {f : Field} (inside : f ∈ r.version.fields)
    (other : f ≠ .metadataVersion) :
    Header.valuesOf r.received f.label = (r.given f).map fun t => readBack (fold t) := by
  have groups := valuesOfGroups (fun g => (r.given g).map fun t => readBack (fold t))
    ((fieldsNodup r.version).filter (· ≠ .metadataVersion)) f
  have apart : ¬ Text.SameLetters Field.metadataVersion.label f.label := fun same =>
    other (Field.sameLettersLabel.1 same).symm
  simp only [List.map_map, Function.comp_def] at groups
  simp only [Header.valuesOf] at groups
  simp only [Header.valuesOf, received, List.filter_cons, apart, decide_false, Bool.false_eq_true,
    if_false, groups]
  simp [inside, other]

/-- Nothing that a value holds adds a header to a document, drops one or changes its name. -/
theorem documentHeaders (r : Record) :
    Header.block (Utf8.encode r.render.value) =
        .ok (⟨Field.metadataVersion.label, r.version.text⟩ ::
          (r.version.fields.filter (· ≠ .metadataVersion)).flatMap fun f =>
            (r.given f).map fun t => ⟨f.label, readBack (fold t)⟩) ∧
      (read (Utf8.encode r.render.value)).failure = none :=
  ⟨blockReceived r, (readFound (blockReceived r) (declaredReceived r)).1⟩

end Record
end PkgInfo
