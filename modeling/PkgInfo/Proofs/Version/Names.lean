import PkgInfo.Proofs.Field.Naming
import PkgInfo.Proofs.Version.Inference

/-! The version that a list of names calls for, said of the names themselves. Names that no version
knows ask for nothing, and neither does a name that comes again, so all that counts is which fields are
named. Only what a refusal blames depends on the order. -/
namespace PkgInfo.Version
open PkgInfo.Field

def Covers (v : Version) (names : List Text) : Prop := ∀ f : Field, f.label ∈ names → f ∈ v.fields

inductive Leads (v : Version) (f : Field) : List Text → Prop where
  | first {before after : List Text} (marks : f ∈ markers v)
      (fresh : ∀ g ∈ markers v, g.label ∉ before) : Leads v f (before ++ f.label :: after)

theorem memNamed {names : List Text} {f : Field} :
    f ∈ names.filterMap labelled? ↔ f.label ∈ names := by
  simp only [List.mem_filterMap, labelledIff, exists_eq_right']

theorem coversHolds {v : Version} {names : List Text} :
    v.Covers names ↔ v.Holds (names.filterMap labelled?) := by
  simp only [Covers, Holds, memNamed]

theorem coversFewer {v : Version} {fewer names : List Text} (within : fewer ⊆ names)
    (covers : v.Covers names) : v.Covers fewer := fun f named => covers f (within named)

theorem inferNamesOk {v : Version} {names : List Text} :
    inferNames names = .ok v ↔ v.Covers names ∧ ∀ w : Version, w.Covers names → v ≤ w := by
  simp only [coversHolds]
  constructor
  · intro inferred
    have least := inferOk.1 inferred
    exact ⟨least.holds, least.oldest⟩
  · intro ⟨holds, oldest⟩
    exact inferOk.2 ⟨holds, oldest⟩

theorem leadsFound {v : Version} {f : Field} {names : List Text}
    (found : (names.filterMap labelled?).find? (· ∈ markers v) = some f) : Leads v f names := by
  induction names with
  | nil => contradiction
  | cons name rest ih =>
    cases reached : labelled? name with
    | none =>
      rw [List.filterMap_cons_none reached] at found
      obtain @⟨before, after, marks, fresh⟩ := ih found
      have unknown : ∀ g : Field, g.label ≠ name := by
        intro g same
        rw [labelledIff.2 same] at reached
        contradiction
      exact @Leads.first v f (name :: before) after marks fun g marked => by
        simp [unknown g, fresh g marked]
    | some g =>
      obtain rfl := labelledSome reached
      rw [List.filterMap_cons_some reached, List.find?_cons] at found
      split at found
      · next marked =>
        obtain rfl := Option.some.inj found
        exact @Leads.first v g [] rest (of_decide_eq_true marked) (by simp)
      · next other =>
        obtain @⟨before, after, marks, fresh⟩ := ih found
        have plain := of_decide_eq_false other
        exact @Leads.first v f (g.label :: before) after marks fun h marked => by
          have apart : h ≠ g := fun same => plain (same ▸ marked)
          simp [labelApart apart, fresh h marked]

theorem foundLeads {v : Version} {f : Field} {names : List Text} (leads : Leads v f names) :
    (names.filterMap labelled?).find? (· ∈ markers v) = some f := by
  obtain @⟨before, after, marks, fresh⟩ := leads
  have none : (before.filterMap labelled?).find? (· ∈ markers v) = none := by
    simp only [List.find?_eq_none, memNamed, decide_eq_true_eq]
    exact fun g named marked => fresh g marked named
  rw [List.filterMap_append, List.find?_append, none, List.filterMap_cons_some (labelledLabel f)]
  simp [marks]

theorem inferNamesError {cause : MixedMarkers} {names : List Text} :
    inferNames names = .error cause ↔ Leads v11 cause.older names ∧ Leads v12 cause.newer names :=
  inferError.trans (and_congr ⟨leadsFound, foundLeads⟩ ⟨leadsFound, foundLeads⟩)

theorem inferNamesRefused {names : List Text} :
    (∃ cause, inferNames names = .error cause) ↔ ∀ v : Version, ¬ v.Covers names := by
  constructor
  · intro ⟨cause, refused⟩ v covers
    obtain ⟨w, inferred⟩ := inferOfHolds (coversHolds.1 covers)
    have accepted : inferNames names = .ok w := inferred
    rw [accepted] at refused
    contradiction
  · intro uncovered
    cases outcome : inferNames names with
    | ok v => exact absurd (inferNamesOk.1 outcome).1 (uncovered v)
    | error cause => exact ⟨cause, rfl⟩

theorem searchEnds {names : List Text}
    (plain : ∀ f : Field, f.label ∈ names → f ∉ markers v11) :
    ∃ v, all.find? (fun v => v.Holds (names.filterMap labelled?)) = some v := by
  have newest : v12.Holds (names.filterMap labelled?) := fun f named =>
    unmarked11Known (plain f (memNamed.1 named))
  rw [← Option.isSome_iff_exists, List.find?_isSome]
  exact ⟨v12, by simp [all], by simpa using newest⟩

theorem inferNamesFewer {fewer names : List Text} {v : Version} (within : fewer ⊆ names)
    (inferred : inferNames names = .ok v) : ∃ w, inferNames fewer = .ok w ∧ w ≤ v := by
  have covers := coversFewer within (inferNamesOk.1 inferred).1
  cases outcome : inferNames fewer with
  | ok w => exact ⟨w, rfl, (inferNamesOk.1 outcome).2 v covers⟩
  | error cause => exact absurd covers (inferNamesRefused.1 ⟨cause, outcome⟩ v)

/-- Names call for the oldest version that knows every field among them. Where there is none, the first
name that marks 1.1 and the first that marks 1.2 are to blame; where neither kind is named, the search
through the versions ends with one of them. Fewer names call for no later version. -/
theorem inferenceLeast (names : List Text) :
    (∀ v, inferNames names = .ok v ↔
      v.Covers names ∧ ∀ w : Version, w.Covers names → v ≤ w) ∧
    ((∃ cause, inferNames names = .error cause) ↔ ∀ v : Version, ¬ v.Covers names) ∧
    (∀ cause, inferNames names = .error cause ↔
      Leads v11 cause.older names ∧ Leads v12 cause.newer names) ∧
    ((∀ f : Field, f.label ∈ names → f ∉ markers v11 ∧ f ∉ markers v12) →
      ∃ v, all.find? (fun v => v.Holds (names.filterMap labelled?)) = some v) ∧
    ∀ fewer v, fewer ⊆ names → inferNames names = .ok v →
      ∃ w, inferNames fewer = .ok w ∧ w ≤ v :=
  ⟨fun _ => inferNamesOk, inferNamesRefused, fun _ => inferNamesError,
    fun plain => searchEnds fun f named => (plain f named).1,
    fun _ _ within inferred => inferNamesFewer within inferred⟩

-- A name that only reaches a field is none of its spellings in a list of names.
def contested : List Text :=
  ["Requires-Dist".toList, "requires".toList, "Provides".toList, "Maintainer".toList]

theorem inferenceLeastContested :
    inferNames contested = .error ⟨provides, requiresDist⟩ ∧
      inferNames (contested.drop 1) = .error ⟨provides, maintainer⟩ ∧
      inferNames (contested.take 2) = .ok v12 ∧
      ∃ w, inferNames ["requires".toList] = .ok w ∧ w ≤ v12 := by
  have older : Leads v11 provides contested :=
    @Leads.first _ _ (contested.take 2) ["Maintainer".toList] (by decide) (by decide)
  have newer : Leads v12 requiresDist contested :=
    @Leads.first _ _ [] (contested.drop 1) (by decide) (by decide)
  obtain ⟨_, _, refused, _⟩ := inferenceLeast contested
  obtain ⟨_, _, _, _, fewer⟩ := inferenceLeast (contested.take 2)
  have inferred : inferNames (contested.take 2) = .ok v12 := by decide
  exact ⟨(refused ⟨provides, requiresDist⟩).2 ⟨older, newer⟩, by decide, inferred,
    fewer ["requires".toList] v12 (by decide) inferred⟩

end PkgInfo.Version
