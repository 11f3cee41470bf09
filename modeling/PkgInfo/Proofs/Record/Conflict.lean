import PkgInfo.Proofs.Record.Reachable

/-! When setting a field is refused, and what comes of it. The fields of a record never mix the two
kinds of markers, so a refusal takes a marker that is being set and a stored one of the other kind. It
names these two, the stored one being the first of its kind, and leaves the record as it is. -/
namespace PkgInfo

namespace Record
open Version (markers Opposed)

structure FirstMarker (r : Record) (v : Version) (f : Field) : Prop where
  marks : f ∈ markers v
  stored : f ∈ r.known
  first : ∀ g ∈ markers v, g ∈ r.known → f = g ∨ f.label < g.label

inductive Blame (r : Record) (field : Text) : Version.MixedMarkers → Prop where
  | older {f g : Field} (reached : f.label = field) (marks : f ∈ markers .v11)
      (other : FirstMarker r .v12 g) : Blame r field ⟨f, g⟩
  | newer {f g : Field} (reached : f.label = field) (marks : f ∈ markers .v12)
      (other : FirstMarker r .v11 g) : Blame r field ⟨g, f⟩

theorem labelsSublist (names : List Text) :
    ((names.filterMap Field.labelled?).map Field.label).Sublist names := by
  induction names with
  | nil => exact .slnil
  | cons name rest ih =>
    cases reached : Field.labelled? name with
    | none => simpa [reached] using ih.cons name
    | some f => simpa [reached, Field.labelledSome reached] using ih.cons_cons name

theorem knownOrdered (r : Record) : (r.known.map Field.label).Pairwise (· < ·) :=
  r.fields.ordered.sublist (labelsSublist r.fields.keys)

theorem findFirst {fields : List Field} (ordered : (fields.map Field.label).Pairwise (· < ·))
    {p : Field → Bool} {f : Field} (found : fields.find? p = some f) :
    ∀ g ∈ fields, p g = true → f = g ∨ f.label < g.label := by
  induction fields with
  | nil => contradiction
  | cons h rest ih =>
    obtain ⟨before, tail⟩ := List.pairwise_cons.1 ordered
    intro g inside wanted
    rw [List.find?_cons] at found
    split at found
    · obtain rfl := Option.some.inj found
      rcases List.mem_cons.1 inside with rfl | later
      · exact .inl rfl
      · exact .inr (before g.label (List.mem_map_of_mem later))
    · next unwanted =>
      rcases List.mem_cons.1 inside with rfl | later
      · rw [wanted] at unwanted
        contradiction
      · exact ih tail found g later wanted

theorem firstMarker {r : Record} {v : Version} {f : Field}
    (found : r.known.find? (· ∈ markers v) = some f) : FirstMarker r v f := by
  obtain ⟨stored, marks⟩ := Version.findMarkerSome found
  refine ⟨marks, stored, fun g others inside => ?_⟩
  exact findFirst (knownOrdered r) found g inside (decide_eq_true others)

theorem inferSet (r : Record) (field : Text) :
    Version.inferNames (r.fields.keys ++ [field]) =
      Version.infer (r.known ++ (Field.labelled? field).toList) := by
  unfold Version.inferNames
  rw [List.filterMap_append]
  cases reached : Field.labelled? field <;> simp [known, reached]

theorem findMixed {present : List Field} (unmixed : ¬ Version.Mixed present) {f g : Field}
    (older : present.find? (· ∈ markers .v11) = some f)
    (newer : present.find? (· ∈ markers .v12) = some g) : False :=
  unmixed ⟨⟨f, Version.findMarkerSome older⟩, g, Version.findMarkerSome newer⟩

theorem findSingle {v : Version} {f g : Field} (found : [f].find? (· ∈ markers v) = some g) :
    f = g ∧ f ∈ markers v := by
  obtain ⟨inside, marks⟩ := Version.findMarkerSome found
  obtain rfl := List.mem_singleton.1 inside
  exact ⟨rfl, marks⟩

theorem blame {r : Record} (sound : Sound r) {field : Text} {cause : Version.MixedMarkers}
    (conflict : Version.inferNames (r.fields.keys ++ [field]) = .error cause) :
    Blame r field cause := by
  obtain ⟨older, newer⟩ := cause
  rw [inferSet, Version.inferError] at conflict
  obtain ⟨first, second⟩ := conflict
  cases reached : Field.labelled? field with
  | none =>
    simp only [reached, Option.toList_none, List.append_nil] at first second
    exact (findMixed sound.unmixed first second).elim
  | some f =>
    have label := Field.labelledSome reached
    simp only [reached, Option.toList_some, List.find?_append, Option.or_eq_some_iff] at first second
    rcases first with first | ⟨_, first⟩
    · rcases second with second | ⟨_, second⟩
      · exact (findMixed sound.unmixed first second).elim
      · obtain ⟨rfl, marks⟩ := findSingle second
        exact .newer label marks (firstMarker first)
    · obtain ⟨rfl, marks⟩ := findSingle first
      rcases second with second | ⟨_, second⟩
      · exact .older label marks (firstMarker second)
      · exact absurd (findSingle second).2 (Version.markersApart marks)

theorem blameOpposed {r : Record} {field : Text} {cause : Version.MixedMarkers}
    (blame : Blame r field cause) : ∃ f g, f.label = field ∧ g ∈ r.known ∧ Opposed f g := by
  cases blame with
  | @older f g reached marks other => exact ⟨f, g, reached, other.stored, .inl ⟨marks, other.marks⟩⟩
  | @newer f g reached marks other => exact ⟨f, g, reached, other.stored, .inr ⟨marks, other.marks⟩⟩

theorem setRefused {r : Record} (sound : Sound r) (name : Text) (value : Value) :
    (r.set name value).failure ≠ none ↔
      ∃ f g, f.label = Field.canonical name ∧ g ∈ r.known ∧ Opposed f g := by
  have outcome := setting r name value
  generalize r.set name value = e at outcome
  constructor
  · intro failed
    cases outcome with
    | ignored isVersion => contradiction
    | refused other conflict => exact blameOpposed (blame sound conflict)
    | done other fits => contradiction
  · rintro ⟨f, g, reached, stored, opposed⟩
    cases outcome with
    | ignored isVersion =>
      exact absurd (Field.labelInjective (reached.trans isVersion)) (Version.opposedApart opposed)
    | refused other conflict => nofun
    | @done version other fits =>
      rw [inferSet, Version.inferOk, ← reached, Field.labelledLabel] at fits
      have mixed : Version.Mixed (r.known ++ [f]) :=
        Version.opposedMixed (by simp) (by simp [stored]) opposed
      exact absurd mixed (Version.notMixedOfHolds fits.holds)

theorem storedDescription (value : Value) :
    stored Field.description.label value =
      .text (Value.unfold (value.coerce .freeText).asText) := by
  have prose : Field.categoryOf Field.description.label = .freeText :=
    Field.categoryOfLabel .description
  cases value <;> simp [stored, prose, Value.coerce, Field.Category.isList, Value.asText]

theorem storedOther {field : Text} (other : field ≠ Field.description.label) (value : Value) :
    stored field value = value.coerce (Field.categoryOf field) := by
  unfold stored
  cases value.coerce (Field.categoryOf field) <;> simp [other]

theorem setFound {r : Record} {name : Text} {value : Value} (done : (r.set name value).failure = none)
    (key : Text) :
    (r.set name value).record.fields.find? key =
      if Field.canonical name = key ∧ key ≠ Field.metadataVersion.label then some (stored key value)
      else r.fields.find? key := by
  have outcome := setting r name value
  generalize r.set name value = e at outcome done ⊢
  cases outcome with
  | ignored isVersion =>
    rw [if_neg]
    rintro ⟨rfl, other⟩
    exact other isVersion
  | refused other conflict => contradiction
  | done other fits =>
    rw [Table.findInsert]
    by_cases here : Field.canonical name = key
    · subst here
      simp [other]
    · simp [here]

theorem setIgnored (r : Record) {name : Text}
    (isVersion : Field.canonical name = Field.metadataVersion.label) (value : Value) :
    (r.set name value).record = r := by
  unfold set
  rw [if_pos isVersion]

theorem setFailure {r : Record} (sound : Sound r) {name : Text} {value : Value} {error : Error}
    (failed : (r.set name value).failure = some error) :
    (r.set name value).record = r ∧ ∃ cause, Blame r (Field.canonical name) cause ∧
      error = .versionConflict (Field.canonical name) cause := by
  have outcome := setting r name value
  generalize r.set name value = e at outcome failed ⊢
  cases outcome with
  | ignored isVersion => contradiction
  | @refused cause other conflict =>
    obtain rfl := Option.some.inj failed
    exact ⟨rfl, cause, blame sound conflict, rfl⟩
  | done other fits => contradiction

/-- Setting a field is refused exactly where it marks one version and a field that marks the other is
stored. Nothing changes then, and the two are named; else the field holds the value in the shape of its
category and no other field changes. -/
theorem setConflict {r : Record} (reachable : Reachable r) (name : Text) (value : Value) :
    let field := Field.canonical name
    let e := r.set name value
    (e.failure ≠ none ↔ ∃ f g, f.label = field ∧ g ∈ r.known ∧ Opposed f g) ∧
      (∀ error, e.failure = some error → e.record = r ∧
        ∃ cause, Blame r field cause ∧ error = .versionConflict field cause ∧
          error.message = "setting '".toList ++ field ++
            "' conflicts with the fields already present: ".toList ++
            ("'".toList ++ cause.older.label ++ "' requires metadata 1.1 but '".toList ++
              cause.newer.label ++ "' requires 1.2".toList)) ∧
      (e.failure = none → field = Field.metadataVersion.label → e.record = r) ∧
      (e.failure = none → field ≠ Field.metadataVersion.label →
        (field = Field.description.label → e.record.fields.find? field =
          some (.text (Value.unfold (value.coerce .freeText).asText))) ∧
        (field ≠ Field.description.label → e.record.fields.find? field =
          some (value.coerce (Field.categoryOf field))) ∧
        ∀ key, key ≠ field → e.record.fields.find? key = r.fields.find? key) := by
  have sound := reachableSound reachable
  intro field e
  refine ⟨setRefused sound name value, ?_, ?_, ?_⟩
  · intro error failed
    obtain ⟨same, cause, blamed, named⟩ := setFailure sound failed
    refine ⟨same, cause, blamed, named, ?_⟩
    rw [named]
    rfl
  · intro _ isVersion
    exact setIgnored r isVersion value
  · intro done other
    refine ⟨fun prose => ?_, fun plain => ?_, fun key apart => ?_⟩
    · rw [setFound done, if_pos ⟨rfl, other⟩, prose, storedDescription]
    · rw [setFound done, if_pos ⟨rfl, other⟩, storedOther plain]
    · rw [setFound done, if_neg fun here => apart here.1.symm]

def legacy : Record :=
  run empty [.set "requires".toList (.text "alpha".toList),
    .set "OBSOLETES".toList (.text "beta".toList)]

theorem setConflictLegacy :
    Reachable legacy ∧
      (legacy.set "maintainer".toList (.text "ann".toList)).failure =
        some (.versionConflict Field.maintainer.label ⟨.obsoletes, .maintainer⟩) ∧
      (legacy.set "maintainer".toList (.text "ann".toList)).record = legacy := by
  have reachable : Reachable legacy := ⟨_, rfl⟩
  have failed : (legacy.set "maintainer".toList (.text "ann".toList)).failure =
      some (.versionConflict Field.maintainer.label ⟨.obsoletes, .maintainer⟩) := by
    decide +kernel
  obtain ⟨_, failing, _⟩ := setConflict reachable "maintainer".toList (.text "ann".toList)
  exact ⟨reachable, failed, (failing _ failed).1⟩

end Record
end PkgInfo
