import PkgInfo.Proofs.Field.Keys
import PkgInfo.Proofs.Record.Undoing

/-! Which entry of a record a name stands for. Names with the key of one field all stand for the entry of
that field; any other name stands for an entry of its own, under which no field can be read or changed. -/
namespace PkgInfo

namespace Record

section
variable [Host]

structure ReadsAlike (r s : Record) (name : Text) : Prop extends SameAt r s name where
  tryGet : r.tryGet name = s.tryGet name

theorem readsAlike {r : Record} {fields : Table Value} {name : Text}
    (found : fields.find? (Field.canonical name) = r.fields.find? (Field.canonical name)) :
    ReadsAlike r {r with fields} name := by
  refine ⟨⟨found.symm, ?_, ?_⟩, ?_⟩
  · simp only [get, found]
    rfl
  · simp only [contains, Table.contains, found]
  · simp only [tryGet, found]
    rfl

structure SameEntry (left right : Text) : Prop where
  set : ∀ (r : Record) value, r.set left value = r.set right value
  remove : ∀ r : Record, r.remove left = r.remove right
  raw : ∀ r : Record, r.raw? left = r.raw? right
  contains : ∀ r : Record, r.contains left = r.contains right
  get : ∀ r : Record, r.get left = r.get right
  tryGet : ∀ r : Record, r.tryGet left = r.tryGet right

theorem sameEntry {left right : Text} (same : Field.canonical left = Field.canonical right) :
    SameEntry left right where
  set r value := by simp only [Record.set, same]
  remove r := by simp only [Record.remove, same]
  raw r := by simp only [raw?, same]
  contains r := by simp only [Record.contains, same]
  get r := by simp only [Record.get, same]
  tryGet r := by simp only [Record.tryGet, same]

structure Misses (name entry : Text) : Prop where
  set : ∀ (r : Record) value, (r.set name value).record.fields.find? entry = r.fields.find? entry
  remove : ∀ r : Record, (r.remove name).record.fields.find? entry = r.fields.find? entry
  reads : ∀ (r : Record) fields, (∀ key ≠ entry, fields.find? key = r.fields.find? key) →
    ReadsAlike r {r with fields} name

theorem misses {name entry : Text} (apart : Field.canonical name ≠ entry) : Misses name entry where
  set r value := by
    have outcome := setting r name value
    generalize r.set name value = e at outcome
    cases outcome with
    | ignored isVersion => rfl
    | refused other conflict => rfl
    | done other fits => rw [Table.findInsert, if_neg apart]
  remove r := by
    simp only [Record.remove]
    split
    · rfl
    · split <;> rw [Table.findErase, if_neg apart]
  reads r fields elsewhere := readsAlike (elsewhere _ apart)

end

end Record

namespace Field
open Record (SameEntry Misses sameEntry misses)

/-- A name whose key is that of a canonical spelling reaches that one field and its entry. Any other name
is kept as it is and reaches no field's entry. -/
theorem canonicalByKey [Host] (text : Text) :
    (∀ f : Field, key text = key f.label →
      (∀ g : Field, key text = key g.label → g = f) ∧ canonical text = f.label ∧
        ∀ other, key other = key f.label → SameEntry text other) ∧
    ((∀ f : Field, key text ≠ key f.label) →
      canonical text = text ∧ ¬ Known text ∧ ∀ f : Field, Misses text f.label) ∧
    (∀ f : Field, labelled? text = some f → ofUnderscored? (key text) = some f) ∧
    canonical (canonical text) = canonical text := by
  refine ⟨fun f same => ⟨fun g reached => keyInjective (reached.symm.trans same),
    canonicalReached same, fun other reached => ?_⟩, fun away => ?_, fun f => labelledKey,
    canonicalTwice text⟩
  · exact sameEntry ((canonicalReached same).trans (canonicalReached reached).symm)
  · have kept := canonicalKept away
    have unknown := canonicalUnknown away
    rw [kept] at unknown
    exact ⟨kept, unknown, fun f => misses fun same => unknown ⟨f, (kept.symm.trans same).symm⟩⟩

attribute [local instance] Host.linux

theorem canonicalByKeySpaced :
    canonical " AUTHOR_E-mail ".toList = " AUTHOR_E-mail ".toList ∧
      canonical " AUTHOR-EMAIL\n".toList = authorEmail.label ∧
      SameEntry " AUTHOR-EMAIL\n".toList "author_email".toList ∧
      Misses " AUTHOR_E-mail ".toList authorEmail.label := by
  obtain ⟨_, kept, _⟩ := canonicalByKey " AUTHOR_E-mail ".toList
  obtain ⟨reached, _⟩ := canonicalByKey " AUTHOR-EMAIL\n".toList
  obtain ⟨_, canonical, same⟩ := reached authorEmail (by decide)
  obtain ⟨unchanged, _, apart⟩ := kept fun f => by cases f <;> decide
  exact ⟨unchanged, canonical, same "author_email".toList (by decide), apart authorEmail⟩

end Field
end PkgInfo
