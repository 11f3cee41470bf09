import PkgInfo.Proofs.Document.Given
import PkgInfo.Proofs.Value.Elements

/-! Writing a record and reading it again. What comes back of a field is what its texts come back as,
so where every text is settled a reader sees each field of the version as it was seen before. -/
namespace PkgInfo
open Text Value

namespace Record

theorem memKeysFound {r : Record} {key : Text} :
    key ∈ r.fields.keys ↔ ∃ value, r.fields.find? key = some value := by
  simp [Table.memKeys, Table.contains, Option.isSome_iff_exists]

theorem defaultShape (category : Field.Category) :
    (Value.default category).isList = category.isList := by
  cases category <;> rfl

theorem restoredSingle {f : Field} (single : f.category.isList = false) (t : Text)
    (rest : List Text) :
    restored f (t :: rest) = if t = unknown then none else some (.text t) := by
  simp [restored, single]

theorem restoredSeveral {f : Field} (several : f.category.isList = true) (other : f ≠ .keywords)
    (texts : List Text) : restored f texts = if texts = [] then none else some (.list texts) := by
  simp [restored, several, elementsOnly, other]

theorem restoredKeywords (texts : List Text) : restored .keywords texts =
    if texts = [] then none else some (.list (splitCommas (joined [','] texts))) := rfl

theorem restoredTexts {f : Field} {value : Value} (shape : value.isList = f.category.isList)
    (elements : f = .keywords → ∀ e ∈ value.asList, Element e) :
    restored f (textsOf f value) = if value = Value.default f.category then none else some value := by
  cases value with
  | text t =>
    have single : f.category.isList = false := shape.symm
    rw [textsOf, restoredSingle single]
    simp [Value.default, single]
  | list items =>
    have several : f.category.isList = true := shape.symm
    have nothing : Value.list items = Value.default f.category ↔ items = [] := by
      simp [Value.default, several]
    simp only [textsOf, nothing]
    by_cases keywords : f = .keywords
    · subst keywords
      by_cases none : items = []
      · simp only [none, if_true]
        rfl
      · have back : splitCommas (joined [','] items) = items := splitCommasJoined (elements rfl)
        simp only [none, if_true, if_false, restoredKeywords, List.cons_ne_nil, joined, back]
    · rw [if_neg keywords, restoredSeveral several keywords]

theorem settledTexts {f : Field} {value : Value} (settled : ∀ t ∈ value.asList, Settled t) :
    ∀ t ∈ textsOf f value, Settled t := by
  cases value with
  | text t => exact settled
  | list items =>
    simp only [textsOf]
    split
    · split
      · simp
      · intro t line
        rw [List.mem_singleton.1 line]
        exact settledJoined (by decide) settled
    · exact settled

section
variable [Host]

theorem rereadFound (r : Record) :
    let again := read (Utf8.encode r.render.value)
    again.failure = none ∧ again.record.platformDependent = false ∧
      ∀ key, again.record.fields.find? key = (Field.labelled? key).bind fun f =>
        if f ∈ r.version.fields ∧ f ≠ .metadataVersion then restored f ((r.given f).map readBack)
        else none := by
  obtain ⟨done, plain, found⟩ := readFound (blockReceived r) (declaredReceived r)
  refine ⟨done, plain, fun key => (found key).trans ?_⟩
  refine congrArg (Field.labelled? key).bind (funext fun f => ?_)
  by_cases inside : f ∈ r.version.fields ∧ f ≠ .metadataVersion
  · have values := valuesReceived r inside.1 inside.2
    have texts : (Header.valuesOf r.received f.label).map unfold = (r.given f).map readBack := by
      rw [values, List.map_map]
      refine List.map_congr_left fun t _ => ?_
      rw [Function.comp_apply, readBackFold, unfoldFold]
    rw [texts]
    simp [inside.1, inside.2]
  · simp only [List.mem_filter, decide_eq_true_eq, inside, if_false]

theorem rereadLabel (r : Record) {f : Field} (inside : f ∈ r.version.fields)
    (other : f ≠ .metadataVersion) :
    (read (Utf8.encode r.render.value)).record.fields.find? f.label =
      restored f ((r.given f).map readBack) := by
  rw [(rereadFound r).2.2]
  simp [Field.labelledLabel, inside, other]

theorem getUnset {r : Record} {f : Field} (other : f ≠ .metadataVersion)
    (unset : r.fields.find? f.label = none) :
    (r.get f.label).value = Value.default f.category := by
  have apart := Field.labelApart other
  simp [get, Field.canonicalLabel, apart, unset, Field.categoryOfLabel]

theorem getPlain {r : Record} (plain : r.platformDependent = false) {f : Field}
    (other : f ≠ .metadataVersion) :
    (r.get f.label).value = (r.fields.find? f.label).getD (Value.default f.category) := by
  have apart := Field.labelApart other
  cases found : r.fields.find? f.label with
  | none => exact getUnset other found
  | some value => simp [get, Field.canonicalLabel, apart, found, screens, plain]

theorem getShape {r : Record} (sound : Sound r) {f : Field} (other : f ≠ .metadataVersion) :
    (r.get f.label).value.isList = f.category.isList := by
  have apart := Field.labelApart other
  cases found : r.fields.find? f.label with
  | none => rw [getUnset other found, defaultShape]
  | some value =>
    have shape := storedKind sound found
    rw [← shape]
    simp only [get, Field.canonicalLabel, apart, if_false, found]
    split
    · cases value with
      | text t =>
        simp only [Logged.valueBind, Logged.valuePure]
        cases (r.screen f.label t).value with
        | some kept => rfl
        | none => rw [textOr, Field.categoryOfLabel, defaultShape, ← shape]
      | list items => rfl
    · rfl

theorem restoredGiven {r : Record} (sound : Sound r) {f : Field} (other : f ≠ .metadataVersion)
    (elements : f = .keywords → ∀ e ∈ (r.get f.label).value.asList, Element e) :
    restored f (r.given f) = if (r.get f.label).value = Value.default f.category then none
      else some (r.get f.label).value := by
  unfold given
  split
  · next unset =>
    obtain ⟨rfl, missing⟩ := unset
    rw [if_pos (getUnset other missing)]
    rfl
  · exact restoredTexts (getShape sound other) elements

theorem givenKept {r : Record} {f : Field}
    (settled : ∀ t ∈ (r.get f.label).value.asList, Settled t) :
    (r.given f).map readBack = r.given f := by
  have each : ∀ t ∈ r.given f, readBack t = id t := by
    unfold given
    split
    · simp
    · exact fun t member => settledIff.1 (settledTexts settled t member)
  rw [List.map_inj_left.2 each, List.map_id]

theorem rereadSettled {r : Record} (sound : Sound r) {f : Field} (inside : f ∈ r.version.fields)
    (other : f ≠ .metadataVersion) (settled : ∀ t ∈ (r.get f.label).value.asList, Settled t)
    (elements : f = .keywords → ∀ e ∈ (r.get f.label).value.asList, Element e) :
    (read (Utf8.encode r.render.value)).record.fields.find? f.label =
      if (r.get f.label).value = Value.default f.category then none
      else some (r.get f.label).value := by
  rw [rereadLabel r inside other, givenKept settled, restoredGiven sound other elements]

theorem rereadOther (r : Record) {key : Text}
    (away : ∀ f ∈ r.version.fields, f ≠ .metadataVersion → f.label ≠ key) :
    (read (Utf8.encode r.render.value)).record.fields.find? key = none := by
  rw [(rereadFound r).2.2]
  cases reached : Field.labelled? key with
  | none => rfl
  | some f =>
    have label := Field.labelledSome reached
    have outside : ¬ (f ∈ r.version.fields ∧ f ≠ .metadataVersion) := fun ⟨inside, other⟩ =>
      away f inside other label
    simp [outside]

theorem rereadKeys {r : Record} (sound : Sound r)
    (settled : ∀ f ∈ r.version.fields, ∀ t ∈ (r.get f.label).value.asList, Settled t)
    (elements : ∀ e ∈ (r.get Field.keywords.label).value.asList, Element e) (key : Text) :
    key ∈ (read (Utf8.encode r.render.value)).record.fields.keys ↔
      ∃ f ∈ r.version.fields, f ≠ .metadataVersion ∧ f.label = key ∧
        (r.get f.label).value ≠ Value.default f.category := by
  rw [memKeysFound]
  constructor
  · rintro ⟨value, found⟩
    by_cases here : ∃ f ∈ r.version.fields, f ≠ .metadataVersion ∧ f.label = key
    · obtain ⟨f, inside, other, rfl⟩ := here
      rw [rereadSettled sound inside other (settled f inside) (fun same => same ▸ elements)] at found
      refine ⟨f, inside, other, rfl, fun unset => ?_⟩
      rw [if_pos unset] at found
      contradiction
    · have none := rereadOther r fun f inside other label => here ⟨f, inside, other, label⟩
      rw [none] at found
      contradiction
  · rintro ⟨f, inside, other, rfl, more⟩
    refine ⟨(r.get f.label).value, ?_⟩
    rw [rereadSettled sound inside other (settled f inside) (fun same => same ▸ elements),
      if_neg more]

theorem rereadKnown {r : Record} (sound : Sound r)
    (settled : ∀ f ∈ r.version.fields, ∀ t ∈ (r.get f.label).value.asList, Settled t)
    (elements : ∀ e ∈ (r.get Field.keywords.label).value.asList, Element e) (f : Field) :
    f ∈ (read (Utf8.encode r.render.value)).record.known ↔ f ∈ r.version.fields.filter fun f =>
      f ≠ .metadataVersion ∧ (r.get f.label).value ≠ Value.default f.category := by
  rw [memKnown, rereadKeys sound settled elements]
  simp only [List.mem_filter, decide_eq_true_eq]
  constructor
  · rintro ⟨g, inside, other, label, more⟩
    obtain rfl := Field.labelInjective label
    exact ⟨inside, other, more⟩
  · rintro ⟨inside, other, more⟩
    exact ⟨f, inside, other, rfl, more⟩

/-- A record is written and read back. Where its texts are settled every field of its version is seen as
before, and what is stored is what was not seen as unset. -/
theorem roundTrip {r : Record} (reachable : Reachable r)
    (settled : ∀ f ∈ r.version.fields, ∀ t ∈ (r.get f.label).value.asList, Settled t)
    (elements : ∀ e ∈ (r.get Field.keywords.label).value.asList,
      e ≠ [] ∧ trim e = e ∧ ',' ∉ e) :
    let again := read (Utf8.encode r.render.value)
    again.failure = none ∧
      (∀ f ∈ r.version.fields, f ≠ .metadataVersion →
        (again.record.get f.label).value = (r.get f.label).value) ∧
      (∀ key, key ∈ again.record.fields.keys ↔ ∃ f ∈ r.version.fields, f ≠ .metadataVersion ∧
        f.label = key ∧ (r.get f.label).value ≠ Value.default f.category) ∧
      again.record.version ≤ r.version ∧
      (again.record.version = r.version ↔ Version.infer (r.version.fields.filter fun f =>
        f ≠ .metadataVersion ∧ (r.get f.label).value ≠ Value.default f.category) =
          .ok r.version) := by
  have sound := reachableSound reachable
  have kept : ∀ e ∈ (r.get Field.keywords.label).value.asList, Element e := fun e member =>
    ⟨(elements e member).1, (elements e member).2.1, (elements e member).2.2⟩
  obtain ⟨done, plain, _⟩ := rereadFound r
  have stored := fun f inside other =>
    rereadSettled (f := f) sound inside other (settled f inside) (fun same => same ▸ kept)
  have keys := rereadKeys sound settled kept
  have fields := rereadKnown sound settled kept
  have least := (reachableSound (readReachable (Utf8.encode r.render.value))).least
  dsimp only
  generalize read (Utf8.encode r.render.value) = again at *
  have within : r.version.Holds again.record.known := fun f here =>
    (List.mem_filter.1 ((fields f).1 here)).1
  refine ⟨done, fun f inside other => ?_, keys, least.oldest r.version within,
    Version.leastInferred (Version.leastCongr fields least)⟩
  rw [getPlain plain other, stored f inside other]
  split
  · next unset => rw [unset]; rfl
  · rfl

end

def crossPlatform : Record :=
  run empty [
    .set "summary".toList (.text "one\nName: two\n".toList),
    .set "Keywords".toList (.text "dist, ,é b,".toList),
    .set "Requires-Dist".toList
      (.list ["x; sys.platform == 'win32'".toList, "y; sys.platform == 'linux'".toList]),
    .platformDependent true]

attribute [local instance] Host.linux

theorem roundTripCrossPlatform :
    let again := read (Utf8.encode crossPlatform.render.value)
    again.failure = none ∧
      (again.record.get Field.keywords.label).value = .list ["dist".toList, "é b".toList] ∧
      (again.record.get Field.requiresDist.label).value = .list ["y".toList] := by
  have trip := roundTrip (r := crossPlatform) ⟨_, rfl⟩ (by decide +kernel) (by decide +kernel)
  have keywords := trip.2.1 .keywords (by decide +kernel) (by decide)
  have kept := trip.2.1 .requiresDist (by decide +kernel) (by decide)
  exact ⟨trip.1, keywords.trans (by decide +kernel), kept.trans (by decide +kernel)⟩

end Record
end PkgInfo
