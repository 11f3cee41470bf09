import PkgInfo.Version

/-! The version that fields call for is the oldest one that knows them all. There is none exactly
where a field that marks 1.1 stands beside one that marks 1.2, so markers are the only conflict. -/
namespace PkgInfo.Version
open PkgInfo.Field

structure Least (v : Version) (present : List Field) : Prop where
  holds : v.Holds present
  oldest : ∀ w : Version, w.Holds present → v ≤ w

def Mixed (present : List Field) : Prop :=
  (∃ older ∈ present, older ∈ markers v11) ∧ ∃ newer ∈ present, newer ∈ markers v12

theorem leAntisymm {v w : Version} (left : v ≤ w) (right : w ≤ v) : v = w := by
  revert left right
  cases v <;> cases w <;> decide

theorem leastUnique {v w : Version} {present : List Field} (left : v.Least present)
    (right : w.Least present) : v = w :=
  leAntisymm (left.oldest w right.holds) (right.oldest v left.holds)

theorem marked11Known {v : Version} {f : Field} (marks : f ∈ markers v11) :
    f ∈ v.fields ↔ v = v11 := by
  simp only [markers, List.mem_cons, List.not_mem_nil, or_false] at marks
  rcases marks with rfl | rfl | rfl <;> cases v <;> decide

theorem marked12Known {v : Version} {f : Field} (marks : f ∈ markers v12) :
    f ∈ v.fields ↔ v = v12 := by
  simp only [markers, List.mem_cons, List.not_mem_nil, or_false] at marks
  rcases marks with rfl | rfl | rfl | rfl | rfl | rfl | rfl | rfl <;> cases v <;> decide

theorem unmarked12Known {f : Field} (plain : f ∉ markers v12) : f ∈ v11.fields := by
  revert plain
  cases f <;> decide

theorem unmarked11Known {f : Field} (plain : f ∉ markers v11) : f ∈ v12.fields := by
  revert plain
  cases f <;> decide

theorem findMarkerNone {present : List Field} {v : Version}
    (away : present.find? (· ∈ markers v) = none) : ∀ f ∈ present, f ∉ markers v := by
  simpa using away

theorem findMarkerSome {present : List Field} {v : Version} {f : Field}
    (found : present.find? (· ∈ markers v) = some f) : f ∈ present ∧ f ∈ markers v :=
  ⟨List.mem_of_find?_eq_some found, by simpa using List.find?_some found⟩

theorem holdsMono {v : Version} {small large : List Field} (within : ∀ f ∈ small, f ∈ large)
    (holds : v.Holds large) : v.Holds small := fun f inside => holds f (within f inside)

theorem leastCongr {v : Version} {left right : List Field} (same : ∀ f, f ∈ left ↔ f ∈ right)
    (least : v.Least left) : v.Least right :=
  ⟨holdsMono (fun f => (same f).2) least.holds,
    fun w holds => least.oldest w (holdsMono (fun f => (same f).1) holds)⟩

theorem notMixedOfHolds {v : Version} {present : List Field} (holds : v.Holds present) :
    ¬ Mixed present := by
  rintro ⟨⟨older, here, marks⟩, newer, there, marks'⟩
  have first : v = v11 := (marked11Known marks).1 (holds older here)
  have second : v = v12 := (marked12Known marks').1 (holds newer there)
  rw [first] at second
  contradiction

-- Without markers the search runs through the versions from the oldest on and always ends.
theorem leastOfSearch {present : List Field} (holds : v12.Holds present) :
    ((all.find? fun v => v.Holds present).getD v12).Least present := by
  by_cases first : v10.Holds present
  · have found : (all.find? fun v => v.Holds present).getD v12 = v10 := by simp [all, first]
    rw [found]
    exact ⟨first, fun w _ => by cases w <;> decide⟩
  · by_cases second : v11.Holds present
    · have found : (all.find? fun v => v.Holds present).getD v12 = v11 := by
        simp [all, first, second]
      rw [found]
      refine ⟨second, fun w known => ?_⟩
      cases w with
      | v10 => exact absurd known first
      | v11 | v12 => decide
    · have found : (all.find? fun v => v.Holds present).getD v12 = v12 := by
        simp [all, first, second, holds]
      rw [found]
      refine ⟨holds, fun w known => ?_⟩
      cases w with
      | v10 => exact absurd known first
      | v11 => exact absurd known second
      | v12 => decide

theorem inferCases (present : List Field) :
    (∃ v, infer present = .ok v ∧ v.Least present) ∨
      ∃ cause, infer present = .error cause ∧ (cause.older ∈ present ∧ cause.older ∈ markers v11) ∧
        cause.newer ∈ present ∧ cause.newer ∈ markers v12 := by
  unfold infer
  cases one : present.find? (· ∈ markers v11) with
  | some older =>
    obtain ⟨here, marks⟩ := findMarkerSome one
    cases two : present.find? (· ∈ markers v12) with
    | some newer => exact .inr ⟨_, rfl, ⟨here, marks⟩, findMarkerSome two⟩
    | none =>
      refine .inl ⟨v11, rfl, fun f inside => unmarked12Known (findMarkerNone two f inside), ?_⟩
      intro w holds
      rw [(marked11Known marks).1 (holds older here)]
      decide
  | none =>
    have known : v12.Holds present := fun f inside => unmarked11Known (findMarkerNone one f inside)
    cases two : present.find? (· ∈ markers v12) with
    | some newer =>
      obtain ⟨here, marks⟩ := findMarkerSome two
      refine .inl ⟨v12, rfl, known, fun w holds => ?_⟩
      rw [(marked12Known marks).1 (holds newer here)]
      decide
    | none => exact .inl ⟨_, rfl, leastOfSearch known⟩

theorem inferOk {present : List Field} {v : Version} : infer present = .ok v ↔ v.Least present := by
  constructor
  · intro ok
    rcases inferCases present with ⟨w, found, least⟩ | ⟨cause, refused, _⟩
    · rw [found] at ok
      cases ok
      exact least
    · rw [refused] at ok
      contradiction
  · intro least
    rcases inferCases present with ⟨w, found, other⟩ | ⟨cause, _, older, newer⟩
    · rw [found, leastUnique other least]
    · exact absurd ⟨⟨_, older⟩, _, newer⟩ (notMixedOfHolds least.holds)

theorem leastInferred {v w : Version} {present : List Field} (least : v.Least present) :
    v = w ↔ infer present = .ok w := by
  rw [inferOk]
  constructor
  · rintro rfl
    exact least
  · exact leastUnique least

theorem inferOfHolds {present : List Field} {v : Version} (holds : v.Holds present) :
    ∃ w, infer present = .ok w := by
  rcases inferCases present with ⟨w, found, _⟩ | ⟨cause, _, older, newer⟩
  · exact ⟨w, found⟩
  · exact absurd ⟨⟨_, older⟩, _, newer⟩ (notMixedOfHolds holds)

theorem markersApart {f : Field} (older : f ∈ markers v11) : f ∉ markers v12 := by
  intro newer
  have same := (marked11Known older).1 ((marked12Known newer).2 rfl)
  contradiction

theorem inferError {present : List Field} {cause : MixedMarkers} :
    infer present = .error cause ↔
      present.find? (· ∈ markers v11) = some cause.older ∧
        present.find? (· ∈ markers v12) = some cause.newer := by
  unfold infer
  cases present.find? (· ∈ markers v11) with
  | none => cases present.find? (· ∈ markers v12) <;> simp
  | some older =>
    cases present.find? (· ∈ markers v12) with
    | none => simp
    | some newer => cases cause; simp

def Opposed (f g : Field) : Prop :=
  (f ∈ markers v11 ∧ g ∈ markers v12) ∨ (f ∈ markers v12 ∧ g ∈ markers v11)

theorem opposedMixed {f g : Field} {present : List Field} (here : f ∈ present) (there : g ∈ present)
    (opposed : Opposed f g) : Mixed present := by
  rcases opposed with ⟨older, newer⟩ | ⟨newer, older⟩
  · exact ⟨⟨f, here, older⟩, g, there, newer⟩
  · exact ⟨⟨g, there, older⟩, f, here, newer⟩

theorem opposedApart {f g : Field} (opposed : Opposed f g) : f ≠ .metadataVersion := by
  rintro rfl
  revert opposed
  simp [Opposed, markers]

def Fits (present : List Field) : Prop := ∃ v : Version, v.Holds present

theorem fitsMono {small large : List Field} (within : ∀ f ∈ small, f ∈ large) (fits : Fits large) :
    Fits small := by
  obtain ⟨v, holds⟩ := fits
  exact ⟨v, holdsMono within holds⟩

theorem fitsCongr {left right : List Field} (same : ∀ f, f ∈ left ↔ f ∈ right) :
    Fits left ↔ Fits right :=
  ⟨fitsMono fun f => (same f).2, fitsMono fun f => (same f).1⟩

theorem fitsInferred {present : List Field} : Fits present ↔ ∃ v, infer present = .ok v := by
  constructor
  · rintro ⟨v, holds⟩
    exact inferOfHolds holds
  · rintro ⟨v, inferred⟩
    exact ⟨v, (inferOk.1 inferred).holds⟩

end PkgInfo.Version
