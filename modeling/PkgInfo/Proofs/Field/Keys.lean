import PkgInfo.Proofs.Field.Naming

/-! The key of a name decides which field the name reaches. The key of a canonical spelling is the
underscored one, so looking for the canonical spelling first finds nothing that the key would not. -/
namespace PkgInfo.Field

def Known (text : Text) : Prop := ∃ f : Field, f.label = text

theorem knownIff {text : Text} : Known text ↔ (labelled? text).isSome := by
  simp only [Option.isSome_iff_exists, labelledIff, Known]

theorem unknownIff {text : Text} : ¬ Known text ↔ labelled? text = none := by
  rw [knownIff, Option.not_isSome_iff_eq_none]

instance (text : Text) : Decidable (Known text) := decidable_of_iff _ knownIff.symm

theorem keyLabel (f : Field) : key f.label = f.underscored := by cases f <;> decide

theorem ofUnderscoredSelf (f : Field) : ofUnderscored? f.underscored = some f := by cases f <;> decide

theorem ofUnderscoredIff {text : Text} {f : Field} :
    ofUnderscored? text = some f ↔ f.underscored = text := by
  constructor
  · intro found
    simpa using List.find?_some found
  · rintro rfl
    exact ofUnderscoredSelf f

theorem keyInjective {f g : Field} (same : key f.label = key g.label) : f = g := by
  rw [keyLabel, keyLabel, ← ofUnderscoredIff, ofUnderscoredSelf] at same
  exact (Option.some.inj same).symm

theorem labelledKey {text : Text} {f : Field} (found : labelled? text = some f) :
    ofUnderscored? (key text) = some f := by
  rw [ofUnderscoredIff, ← labelledSome found, keyLabel]

theorem namedByKey (text : Text) : named? text = ofUnderscored? (key text) := by
  cases found : labelled? text with
  | some f => simp [named?, found, labelledKey found]
  | none => simp [named?, found]

theorem namedIff {text : Text} {f : Field} : named? text = some f ↔ key text = key f.label := by
  rw [namedByKey, ofUnderscoredIff, keyLabel, eq_comm]

theorem canonicalReached {text : Text} {f : Field} (same : key text = key f.label) :
    canonical text = f.label := by
  simp [canonical, namedIff.2 same]

theorem namedNone {text : Text} (away : ∀ f : Field, key text ≠ key f.label) : named? text = none :=
  Option.eq_none_iff_forall_ne_some.2 fun f found => away f (namedIff.1 found)

theorem canonicalKept {text : Text} (away : ∀ f : Field, key text ≠ key f.label) :
    canonical text = text := by
  simp [canonical, namedNone away]

theorem canonicalUnknown {text : Text} (away : ∀ f : Field, key text ≠ key f.label) :
    ¬ Known (canonical text) := by
  rintro ⟨f, label⟩
  rw [canonicalKept away] at label
  exact away f (label ▸ rfl)

end PkgInfo.Field
