import PkgInfo.Proofs.Document.RoundTrip
import PkgInfo.Proofs.Record.Calls
import PkgInfo.Record.Check

/-! What a check finds wrong with values, beside what was warned of when they were set. Both ask the same
of the same values, so a value of a 1.2 field is found wrong exactly where setting it gave a warning,
unless it is the word for an unset field. -/
namespace PkgInfo
open Value

namespace Record

def watched : List Field := [.requiresDist, .providesDist, .obsoletesDist, .requiresPython, .version]

def isFaulty (judge : Text → Bool) (f : Field) : Value → Bool
  | .list items => f.category = .predicateList && items.any fun item => !judge (splitMarker item).1
  | .text t =>
    (f = .requiresPython && !Predicate.isVersionList (splitMarker t).1) ||
      (f = .version && !Predicate.isVersion (splitMarker t).1)

def shownText : Value → Text
  | .text t => t
  | .list items => Text.joined ", ".toList items

def fault? (r : Record) (f : Field) : Option Text :=
  (r.raw? f.label).bind fun value =>
    if value ≠ .text unknown ∧ isFaulty r.isPredicate f value then some (shownText value) else none

theorem complaintsSome {r : Record} {f : Field} {value : Value} :
    r.complaints f.label value ≠ [] ↔ isFaulty r.isPredicate f value = true := by
  cases value with
  | list items =>
    simp only [complaints, isFaulty, Field.categoryOfLabel]
    split
    · next kind => simp [kind]
    · next other => simp [other]
  | text t =>
    simp only [complaints, isFaulty, Field.labelEq]
    split
    · next python => simp [python]
    · split
      · next version => simp [version]
      · next neither other => simp [neither, other]

section
variable {r : Record} {f : Field}

theorem rawLabel (r : Record) (f : Field) : r.raw? f.label = r.fields.find? f.label := by
  rw [raw?, Field.canonicalLabel]

def wrongFields (r : Record) : List Field :=
  if r.version = .v12 then watched.filter fun f => (r.fault? f).isSome else []

theorem faultSome : (r.fault? f).isSome = true ↔ ∃ value, r.raw? f.label = some value ∧
    value ≠ .text unknown ∧ isFaulty r.isPredicate f value = true := by
  unfold fault?
  cases r.raw? f.label with
  | none => simp
  | some value => simp [Option.isSome_ite]

-- The word for an unset field is a text, which the three lists cannot be.
theorem meantText (sound : Sound r) (member : f ∈ watched) {value : Value}
    (found : r.raw? f.label = some value) :
    value ≠ .text unknown ↔ (f = .requiresPython ∨ f = .version → value ≠ .text unknown) := by
  have texts : ∀ g ∈ watched, g.category.isList = false → g = .requiresPython ∨ g = .version := by
    decide
  constructor
  · intro other _
    exact other
  · intro meant same
    rw [rawLabel] at found
    have shape := storedKind sound found
    rw [same] at shape
    exact meant (texts f member shape.symm) same

theorem warnedFaulty {judge : Text → Bool} {past : List Call} (accounted : Accounted judge past r)
    {value : Value} (found : r.raw? f.label = some value) :
    isFaulty r.isPredicate f value = true ↔ ∃ call, lastStoring? past f.label = some call ∧
      stored f.label call.value = value ∧ call.edit.log ≠ [] := by
  rw [rawLabel] at found
  obtain ⟨call, last, stores, judged, same⟩ := accounted.stored f.label value found
  have log : call.edit.log ≠ [] ↔ isFaulty r.isPredicate f value = true := by
    rw [storingLog stores, same, complaintsSome, judged, accounted.judged]
  constructor
  · intro faulty
    exact ⟨call, last, same, log.2 faulty⟩
  · intro ⟨other, otherLast, _, warned⟩
    rw [last] at otherLast
    cases otherLast
    exact log.1 warned

variable [Host]

theorem dependencyFault (sound : Sound r) (plain : r.platformDependent = false)
    (kind : f.category = .predicateList) :
    (r.dependencyFinding f).value = (r.fault? f).map (.wrongValue f) := by
  have other : f ≠ .metadataVersion := by
    rintro rfl
    contradiction
  simp only [dependencyFinding, getList, Logged.valueBind, Logged.valuePure, getPlain plain other,
    fault?, rawLabel]
  cases found : r.fields.find? f.label with
  | none => simp [kind, Value.default, Field.Category.isList, Value.asList]
  | some value =>
    have shape := storedKind sound found
    rw [kind] at shape
    cases value with
    | text t => contradiction
    | list items =>
      simp only [Option.getD_some, Value.asList, Option.bind_some, isFaulty, kind, decide_true,
        Bool.true_and, ne_eq, reduceCtorEq, not_false_eq_true, true_and]
      split <;> rfl

theorem textFault (sound : Sound r) (plain : r.platformDependent = false)
    (single : f.category = .scalarText) (other : f ≠ .metadataVersion) {inOrder : Text → Bool}
    (judged : ∀ t, isFaulty r.isPredicate f (.text t) = !inOrder (splitMarker t).1) :
    (r.textFinding f inOrder).value = (r.fault? f).map (.wrongValue f) := by
  simp only [textFinding, getText, Logged.valueBind, Logged.valuePure, getPlain plain other,
    fault?, rawLabel]
  cases found : r.fields.find? f.label with
  | none => simp [single, Value.default, Field.Category.isList, Value.asText]
  | some value =>
    have shape := storedKind sound found
    rw [single] at shape
    cases value with
    | list items => contradiction
    | text t =>
      simp only [Option.getD_some, Value.asText, Option.bind_some, judged, ne_eq, Value.text.injEq,
        Option.map_if, shownText]
      congr

theorem valueFaults (sound : Sound r) (plain : r.platformDependent = false) :
    r.valueFindings.value = if r.version = .v12 then
      watched.filterMap fun f => (r.fault? f).map (.wrongValue f) else [] := by
  have lists : ∀ f ∈ [Field.requiresDist, .providesDist, .obsoletesDist],
      f.category = .predicateList := by decide
  have each : (Logged.each r.dependencyFinding [.requiresDist, .providesDist, .obsoletesDist]).value =
      [Field.requiresDist, .providesDist, .obsoletesDist].map fun f =>
        (r.fault? f).map (.wrongValue f) := by
    rw [Logged.valueEach]
    exact List.map_congr_left fun f member => dependencyFault sound plain (lists f member)
  have python : (r.textFinding .requiresPython Predicate.isVersionList).value = _ :=
    textFault sound plain rfl (by decide) fun t => by simp [isFaulty]
  have version : (r.textFinding .version Predicate.isVersion).value = _ :=
    textFault sound plain rfl (by decide) fun t => by simp [isFaulty]
  unfold valueFindings
  split
  · simp only [Logged.valueBind, Logged.valuePure, each, python, version]
    exact List.filterMap_map (f := fun f => (r.fault? f).map (Finding.wrongValue f)) (g := id) (l := watched)
  · rfl

theorem proseOnly (r : Record) (critic : Option Critic) :
    ∀ finding ∈ (r.proseFindings critic).value, ∃ severity message, finding = .prose severity message := by
  intro finding member
  unfold proseFindings at member
  split at member
  · contradiction
  · split at member
    · obtain ⟨⟨severity, message⟩, _, rfl⟩ := List.mem_map.1 member
      exact ⟨severity, message, rfl⟩
    · contradiction

theorem checkFindings (r : Record) (critic : Option Critic) :
    (r.check critic).value.findings = (r.proseFindings critic).value ++ r.valueFindings.value := rfl

theorem wrongValues (sound : Sound r) (plain : r.platformDependent = false) :
    r.valueFindings.value = r.wrongFields.map fun f => .wrongValue f ((r.fault? f).getD []) := by
  rw [valueFaults sound plain, wrongFields]
  split
  · generalize watched = fields
    induction fields with
    | nil => rfl
    | cons f rest ih => cases fault : r.fault? f <;> simp [fault, ih]
  · rfl

theorem foundValue {critic : Option Critic} {text : Text} :
    Finding.wrongValue f text ∈ (r.check critic).value.findings ↔
      Finding.wrongValue f text ∈ r.valueFindings.value := by
  rw [checkFindings, List.mem_append]
  constructor
  · intro found
    cases found with
    | inl prose =>
      obtain ⟨severity, message, same⟩ := proseOnly r critic _ prose
      contradiction
    | inr value => exact value
  · exact Or.inr

theorem wrongFound (sound : Sound r) (plain : r.platformDependent = false) (critic : Option Critic) :
    (∃ text, Finding.wrongValue f text ∈ (r.check critic).value.findings) ↔ f ∈ r.wrongFields := by
  simp only [foundValue, wrongValues sound plain]
  constructor
  · intro ⟨shown, value⟩
    obtain ⟨other, wrong, same⟩ := List.mem_map.1 value
    cases same
    exact wrong
  · intro wrong
    exact ⟨_, List.mem_map_of_mem wrong⟩

end

/-- A check finds a watched field wrong, on a 1.2 record whose values do not vary by platform, exactly
where it is stored and the call that stored it warned, the two texts apart that say they are unset.
What it finds stands after the prose, in the order of the fields and once for each; a record of an
earlier version has none. -/
theorem findingsAgree [Host] (judge : Text → Bool) (changes : List Change)
    (steady : ∀ change ∈ changes, ∀ other, change ≠ .isPredicate other) (critic : Option Critic) :
    let start : Record := {empty with isPredicate := judge}
    let r := run start changes
    let findings := (r.check critic).value.findings
    (r.platformDependent = false →
      (r.version = .v12 → ∀ f ∈ watched, (∃ text, Finding.wrongValue f text ∈ findings) ↔
        ∃ value, r.raw? f.label = some value ∧
          (f = .requiresPython ∨ f = .version → value ≠ .text unknown) ∧
          ∃ call, lastStoring? (calls start changes) f.label = some call ∧
            stored f.label call.value = value ∧ call.edit.log ≠ []) ∧
      ∃ (prose : List Finding) (fields : List Field) (text : Field → Text),
        findings = prose ++ fields.map (fun f => .wrongValue f (text f)) ∧
        (∀ finding ∈ prose, ∃ severity message, finding = .prose severity message) ∧
        fields.Sublist watched ∧ fields.Nodup) ∧
    (r.version ≠ .v12 → ∀ f text, .wrongValue f text ∉ findings) := by
  intro start r findings
  have sound : Sound r := reachableSound ⟨.isPredicate judge :: changes, rfl⟩
  have fresh : Accounted judge [] start := ⟨rfl, nofun⟩
  have accounted : Accounted judge (calls start changes) r := runAccounted fresh steady
  constructor
  · intro plain
    constructor
    · intro latest f member
      rw [wrongFound sound plain, wrongFields, if_pos latest, List.mem_filter, faultSome]
      constructor
      · intro ⟨_, value, found, other, faulty⟩
        exact ⟨value, found, (meantText sound member found).1 other,
          (warnedFaulty accounted found).1 faulty⟩
      · intro ⟨value, found, meant, warned⟩
        exact ⟨member, value, found, (meantText sound member found).2 meant,
          (warnedFaulty accounted found).2 warned⟩
    · have ordered : r.wrongFields.Sublist watched := by
        unfold wrongFields
        split
        · exact List.filter_sublist
        · exact List.nil_sublist watched
      refine ⟨(r.proseFindings critic).value, r.wrongFields, fun f => (r.fault? f).getD [], ?_,
        proseOnly r critic, ordered, ordered.nodup (by decide)⟩
      rw [← wrongValues sound plain]
      exact checkFindings r critic
  · intro earlier f text found
    rw [foundValue, valueFindings, if_neg earlier] at found
    contradiction

def mended : List Change :=
  [.set "requires-dist".toList (.list ["alpha (one)".toList, "beta (2.0)".toList]),
    .update [("VERSION".toList, .text unknown), ("requires_python".toList, .text ">= two".toList)],
    .remove "Requires_Dist".toList,
    .set "Requires-Dist".toList (.list ["beta (2.0)".toList])]

attribute [local instance] Host.linux

theorem findingsAgreeMended :
    (∀ change ∈ mended, ∀ other, change ≠ .isPredicate other) ∧
      (run empty mended).platformDependent = false ∧ (run empty mended).version = .v12 ∧
      ((run empty mended).check none).value.findings =
        [.wrongValue .requiresPython ">= two".toList] ∧
      ∃ value, (run empty mended).raw? Field.requiresPython.label = some value ∧
        value ≠ .text unknown ∧
        ∃ call, lastStoring? (calls empty mended) Field.requiresPython.label = some call ∧
          stored Field.requiresPython.label call.value = value ∧ call.edit.log ≠ [] := by
  have steady : ∀ change ∈ mended, ∀ other, change ≠ .isPredicate other := by simp [mended]
  obtain ⟨plain, latest, found⟩ : (run empty mended).platformDependent = false ∧
      (run empty mended).version = .v12 ∧ ((run empty mended).check none).value.findings =
        [.wrongValue .requiresPython ">= two".toList] := by decide +kernel
  obtain ⟨agree, _⟩ := findingsAgree empty.isPredicate mended steady none
  have wrong : ∃ text, Finding.wrongValue .requiresPython text ∈
      ((run empty mended).check none).value.findings := ⟨_, found ▸ List.mem_singleton_self _⟩
  obtain ⟨value, stands, meant, warned⟩ :=
    ((agree plain).1 latest .requiresPython (by decide)).1 wrong
  exact ⟨steady, plain, latest, found, value, stands, meant (.inl rfl), warned⟩

end Record
end PkgInfo
