import PkgInfo.Field

/-! Names and the fields they reach. A canonical spelling belongs to one field, also up to the case
of its letters, and taking the canonical name twice is taking it once. -/
namespace PkgInfo.Field

theorem labelledSome {text : Text} {f : Field} (found : labelled? text = some f) :
    f.label = text := by
  simpa using List.find?_some found

theorem labelInjective {f g : Field} (same : f.label = g.label) : f = g := by
  have found := labelledLabel f
  rw [same, labelledLabel g] at found
  exact (Option.some.inj found).symm

theorem labelEq {f g : Field} : f.label = g.label ↔ f = g :=
  ⟨labelInjective, fun same => same ▸ rfl⟩

theorem labelApart {f g : Field} (other : f ≠ g) : f.label ≠ g.label :=
  fun same => other (labelInjective same)

theorem labelledIff {text : Text} {f : Field} : labelled? text = some f ↔ f.label = text :=
  ⟨labelledSome, fun same => same ▸ labelledLabel f⟩

theorem canonicalTwice (text : Text) : canonical (canonical text) = canonical text := by
  cases reached : named? text with
  | some f => simp [canonical, reached, namedLabel]
  | none => simp [canonical, reached]

theorem categoryOfLabel (f : Field) : categoryOf f.label = f.category := by
  simp [categoryOf, labelledLabel]

theorem sameLettersLabel {f g : Field} : Text.SameLetters f.label g.label ↔ f = g := by
  constructor
  · revert f g
    have apart : ∀ f ∈ all, ∀ g ∈ all, Text.SameLetters f.label g.label → f = g := by
      decide +kernel
    exact fun {f g} => apart f (memAll f) g (memAll g)
  · rintro rfl
    rfl

end PkgInfo.Field
