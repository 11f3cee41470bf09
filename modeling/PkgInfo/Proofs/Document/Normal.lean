import Mathlib.Algebra.Order.BigOperators.Group.List
import Mathlib.Algebra.Order.Group.Nat
import PkgInfo.Proofs.Document.RoundTrip

/-! Reading and writing once more. A record that was read is written in a form that reads back as the
same record, except where one of its texts loses carriage returns; then the document gets shorter. -/
namespace PkgInfo
open Text Value

namespace Record

def Steady (r : Record) : Prop :=
  ∀ key value, r.fields.find? key = some value → ∀ t ∈ value.asList, Settled t

inductive Restorable (f : Field) : Value → Prop where
  | text {t : Text} (single : f.category.isList = false) (known : t ≠ unknown) :
      Restorable f (.text t)
  | keywords {items : List Text} (same : f = .keywords) (elements : ∀ e ∈ items, Element e) :
      Restorable f (.list items)
  | list {items : List Text} (several : f.category.isList = true) (other : f ≠ .keywords)
      (some : items ≠ []) : Restorable f (.list items)

structure AsRead (r : Record) : Prop where
  sound : Sound r
  plain : r.platformDependent = false
  source : ∀ key value, r.fields.find? key = some value →
    ∃ f, f ≠ Field.metadataVersion ∧ f.label = key ∧ Restorable f value

theorem restoredSource {f : Field} {texts : List Text} {value : Value}
    (given : restored f texts = some value) : Restorable f value := by
  by_cases keywords : f = .keywords
  · subst keywords
    rw [restoredKeywords] at given
    split at given
    · contradiction
    · cases given
      exact .keywords rfl (splitCommasElement _)
  · cases several : f.category.isList with
    | true =>
      rw [restoredSeveral several keywords] at given
      split at given
      · contradiction
      · next some =>
        cases given
        exact .list several keywords some
    | false =>
      cases texts with
      | nil => simp [restored, several] at given
      | cons t rest =>
        rw [restoredSingle several] at given
        split at given
        · contradiction
        · next known =>
          cases given
          exact .text several known

theorem readAsRead {input : Bytes} (accepted : (read input).failure = none) :
    AsRead (read input).record := by
  obtain ⟨headers, v, block, declared⟩ := readAccepted accepted
  obtain ⟨_, plain, found⟩ := readFound block declared
  refine ⟨reachableSound (readReachable input), plain, fun key value here => ?_⟩
  rw [found] at here
  obtain ⟨f, reached, given⟩ := Option.bind_eq_some_iff.1 here
  by_cases inside : f ∈ v.fields.filter (· ≠ .metadataVersion)
  · rw [if_pos inside] at given
    exact ⟨f, (suppliesInside inside).2, Field.labelledSome reached, restoredSource given⟩
  · rw [if_neg inside] at given
    contradiction

theorem sourceLabel {r : Record} (asRead : AsRead r) {f : Field} {value : Value}
    (found : r.fields.find? f.label = some value) : Restorable f value := by
  obtain ⟨g, _, label, source⟩ := asRead.source f.label value found
  exact Field.labelInjective label ▸ source

-- What a field that is not set reads as is stored in one way only.
theorem sourceDefault {f : Field} {value : Value} (source : Restorable f value) :
    value = Value.default f.category ↔ f = .keywords ∧ value = .list [] := by
  cases source with
  | text single known => simp [Value.default, single, known]
  | keywords same elements => subst same; simp [Value.default, Field.category, Field.Category.isList]
  | list several other some => simp [Value.default, several, other, some]

theorem sourceInside {r : Record} (asRead : AsRead r) {key : Text} {value : Value}
    (found : r.fields.find? key = some value) :
    ∃ f ∈ r.version.fields, f ≠ .metadataVersion ∧ f.label = key := by
  obtain ⟨f, other, rfl, _⟩ := asRead.source key value found
  have here : f ∈ r.known := memKnown.2 (memKeysFound.2 ⟨value, found⟩)
  exact ⟨f, asRead.sound.least.holds f here, other, rfl⟩

theorem defaultSettled (category : Field.Category) :
    ∀ t ∈ (Value.default category).asList, Settled t := by
  have settled : Settled unknown := by decide +kernel
  unfold Value.default
  split
  · exact nofun
  · intro t member
    rwa [List.mem_singleton.1 member]

def written (f : Field) : Option Value → List Text
  | none => if f = .downloadUrl then [] else textsOf f (Value.default f.category)
  | some value => textsOf f value

def paragraph (f : Field) (texts : List Text) : Text :=
  texts.flatMap fun t => Header.line ⟨f.label, t⟩

theorem lineReadBack (name t : Text) :
    (Header.line ⟨name, readBack t⟩).length ≤ (Header.line ⟨name, t⟩).length := by
  have shorter := (foldSublist (readBackSublist t)).length_le
  simp only [Header.line, List.length_append]
  omega

theorem lineUnsettled (name : Text) {t : Text} (unsettled : ¬ Settled t) :
    (Header.line ⟨name, readBack t⟩).length < (Header.line ⟨name, t⟩).length := by
  have shorter := foldShorter (readBackSublist t) fun same => unsettled (settledIff.2 same)
  simp only [Header.line, List.length_append]
  omega

theorem paragraphReadBack (f : Field) (texts : List Text) :
    (paragraph f (texts.map readBack)).length ≤ (paragraph f texts).length := by
  simp only [paragraph, List.flatMap_map, List.length_flatMap]
  exact List.sum_le_sum fun t _ => lineReadBack f.label t

theorem paragraphUnsettled (f : Field) {texts : List Text} (unsettled : ∃ t ∈ texts, ¬ Settled t) :
    (paragraph f (texts.map readBack)).length < (paragraph f texts).length := by
  obtain ⟨t, member, loses⟩ := unsettled
  simp only [paragraph, List.flatMap_map, List.length_flatMap]
  have shorter := lineUnsettled f.label loses
  exact List.sum_lt_sum _ _ (fun t _ => lineReadBack f.label t) ⟨t, member, shorter⟩

theorem writtenNothing {f : Field} (several : f.category.isList = true) : written f none = [] := by
  have apart : f ≠ .downloadUrl := by rintro rfl; contradiction
  simp [written, apart, Value.default, several, textsOf]

theorem writtenSeveral {f : Field} (several : f.category.isList = true) (other : f ≠ .keywords)
    (texts : List Text) : written f (restored f texts) = texts := by
  rw [restoredSeveral several other]
  split
  · next empty => rw [writtenNothing several, empty]
  · simp [written, textsOf, other]

theorem keywordsShorter (t : Text) :
    (paragraph .keywords (written .keywords (restored .keywords [t]))).length ≤
      (paragraph .keywords [t]).length := by
  simp only [restoredKeywords, List.cons_ne_nil, if_false, joined, written, textsOf, if_true]
  split
  · simp [paragraph]
  · have shorter := (foldSublist (splitCommasSublist t)).length_le
    simp only [paragraph, List.flatMap_cons, List.flatMap_nil, List.append_nil, Header.line,
      List.length_append]
    omega

theorem singleShorter {f : Field} (single : f.category.isList = false) (t : Text)
    (rest : List Text) :
    (paragraph f (written f (restored f (t :: rest)))).length ≤ (paragraph f (t :: rest)).length := by
  rw [restoredSingle single]
  by_cases missing : t = unknown
  · by_cases address : f = .downloadUrl
    · simp [missing, written, address, paragraph]
    · simp [missing, written, address, paragraph, Value.default, single, textsOf]
  · simp [missing, written, paragraph, textsOf]

theorem restoredShorter {f : Field} {texts : List Text} (line : f = .keywords → texts.length ≤ 1)
    (some : f.category.isList = false → f = .downloadUrl ∨ texts ≠ []) :
    (paragraph f (written f (restored f texts))).length ≤ (paragraph f texts).length := by
  cases several : f.category.isList with
  | true =>
    by_cases keywords : f = .keywords
    · subst keywords
      match texts, line rfl with
      | [], _ => rw [restoredKeywords, if_pos rfl, writtenNothing several]
      | [t], _ => exact keywordsShorter t
    · rw [writtenSeveral several keywords]
  | false =>
    cases texts with
    | nil =>
      have address := (some several).resolve_right fun other => other rfl
      subst address
      exact Nat.le_refl _
    | cons t rest => exact singleShorter several t rest

theorem textsLine {f : Field} (line : f = .keywords) {value : Value} :
    (textsOf f value).length ≤ 1 := by
  cases value with
  | text t => simp [textsOf]
  | list items =>
    simp only [textsOf, line, if_true]
    split <;> simp

section
variable [Host]

theorem getElements {r : Record} (asRead : AsRead r) :
    ∀ e ∈ (r.get Field.keywords.label).value.asList, Element e := by
  rw [getPlain asRead.plain (by decide)]
  cases found : r.fields.find? Field.keywords.label with
  | none => exact nofun
  | some value =>
    cases sourceLabel asRead found with
    | text single known => contradiction
    | keywords same elements => exact elements
    | list several other some => exact absurd rfl other

theorem getSettled {r : Record} (asRead : AsRead r) (steady : Steady r) {f : Field}
    (other : f ≠ .metadataVersion) : ∀ t ∈ (r.get f.label).value.asList, Settled t := by
  rw [getPlain asRead.plain other]
  cases found : r.fields.find? f.label with
  | none => exact defaultSettled f.category
  | some value => exact steady f.label value found

theorem rereadSteady {r : Record} (asRead : AsRead r) (steady : Steady r) (key : Text) :
    (read (Utf8.encode r.render.value)).record.fields.find? key =
      if key = Field.keywords.label ∧ r.fields.find? key = some (.list []) then none
      else r.fields.find? key := by
  by_cases here : ∃ f ∈ r.version.fields, f ≠ .metadataVersion ∧ f.label = key
  · obtain ⟨f, inside, other, rfl⟩ := here
    rw [rereadSettled asRead.sound inside other (getSettled asRead steady other)
      (fun same => same ▸ getElements asRead), getPlain asRead.plain other]
    cases found : r.fields.find? f.label with
    | none => simp
    | some value => simp [sourceDefault (sourceLabel asRead found), Field.labelEq]
  · have nothing : r.fields.find? key = none := by
      by_contra some
      obtain ⟨value, found⟩ := Option.ne_none_iff_exists'.1 some
      exact here (sourceInside asRead found)
    rw [rereadOther r fun f inside other label => here ⟨f, inside, other, label⟩, nothing]
    simp

theorem steadyFields {r : Record} (asRead : AsRead r) (steady : Steady r) :
    (read (Utf8.encode r.render.value)).record.fields =
      if r.fields.find? Field.keywords.label = some (.list []) then
        r.fields.erase Field.keywords.label
      else r.fields := by
  refine Table.eqOfFind fun key => ?_
  rw [rereadSteady asRead steady]
  by_cases keywords : key = Field.keywords.label
  · subst keywords
    by_cases nothing : r.fields.find? Field.keywords.label = some (.list [])
    · simp [nothing, Table.findErase]
    · simp [nothing]
  · have apart : Field.keywords.label ≠ key := Ne.symm keywords
    by_cases nothing : r.fields.find? Field.keywords.label = some (.list [])
    · simp [nothing, keywords, apart, Table.findErase]
    · simp [nothing, keywords]

-- Keywords are among the fields of every version, so leaving them out changes no version.
theorem steadyVersion {r : Record} (asRead : AsRead r) (steady : Steady r) :
    (read (Utf8.encode r.render.value)).record.version = r.version := by
  have least := (reachableSound (readReachable (Utf8.encode r.render.value))).least
  have stored := rereadSteady asRead steady
  generalize read (Utf8.encode r.render.value) = again at *
  have fewer : ∀ f ∈ again.record.known, f ∈ r.known := by
    intro f here
    obtain ⟨value, found⟩ := memKeysFound.1 (memKnown.1 here)
    rw [stored] at found
    split at found
    · contradiction
    · exact memKnown.2 (memKeysFound.2 ⟨value, found⟩)
  have others : ∀ f ∈ r.known, f = .keywords ∨ f ∈ again.record.known := by
    intro f here
    by_cases keywords : f = .keywords
    · exact .inl keywords
    · obtain ⟨value, found⟩ := memKeysFound.1 (memKnown.1 here)
      refine .inr (memKnown.2 (memKeysFound.2 ⟨value, ?_⟩))
      rw [stored, if_neg fun missing => Field.labelApart keywords missing.1, found]
  refine Version.leastUnique least ⟨Version.holdsMono fewer asRead.sound.least.holds, ?_⟩
  intro w holds
  refine asRead.sound.least.oldest w fun f here => ?_
  rcases others f here with rfl | kept
  · cases w <;> decide
  · exact holds f kept

theorem givenPlain {r : Record} (plain : r.platformDependent = false) {f : Field}
    (other : f ≠ .metadataVersion) : r.given f = written f (r.fields.find? f.label) := by
  unfold given
  rw [getPlain plain other]
  cases found : r.fields.find? f.label with
  | none => simp [written]
  | some value => simp [written]

theorem renderParagraphs (r : Record) :
    r.render.value = Header.line ⟨Field.metadataVersion.label, r.version.text⟩ ++
      (r.version.fields.filter (· ≠ .metadataVersion)).flatMap fun f => paragraph f (r.given f) := by
  rw [renderWritten, headersWritten, List.flatMap_cons, List.flatMap_assoc]
  simp only [List.flatMap_map, paragraph]

theorem steadyRender {r : Record} (asRead : AsRead r) (steady : Steady r) :
    (read (Utf8.encode r.render.value)).record.render.value = r.render.value := by
  have version := steadyVersion asRead steady
  have plain := (rereadFound r).2.1
  have stored := rereadSteady asRead steady
  generalize read (Utf8.encode r.render.value) = again at *
  rw [renderParagraphs, renderParagraphs, version]
  refine congrArg _ (List.flatMap_congr fun f inside => ?_)
  have other := (suppliesInside inside).2
  rw [givenPlain plain other, givenPlain asRead.plain other, stored]
  split
  · next missing =>
    obtain ⟨label, nothing⟩ := missing
    obtain rfl := Field.labelInjective label
    rw [nothing]
    rfl
  · rfl

theorem givenLine {r : Record} {f : Field} (line : f = .keywords) : (r.given f).length ≤ 1 := by
  unfold given
  split
  · simp
  · exact textsLine line

theorem givenSome {r : Record} (asRead : AsRead r) {f : Field} (other : f ≠ .metadataVersion)
    (single : f.category.isList = false) : f = .downloadUrl ∨ r.given f ≠ [] := by
  by_cases address : f = .downloadUrl
  · exact .inl address
  · have shape := getShape asRead.sound other
    unfold given
    cases value : (r.get f.label).value with
    | text t => simp [address, textsOf]
    | list items => rw [value, single] at shape; contradiction

theorem givenUnsettled {r : Record} (asRead : AsRead r) {f : Field} (other : f ≠ .metadataVersion)
    {value : Value} (found : r.fields.find? f.label = some value) {t : Text}
    (member : t ∈ value.asList) (unsettled : ¬ Settled t) : ∃ t ∈ r.given f, ¬ Settled t := by
  rw [givenPlain asRead.plain other, found, written]
  cases sourceLabel asRead found with
  | text single known => exact ⟨t, member, unsettled⟩
  | @keywords items same elements =>
    have some : items ≠ [] := List.ne_nil_of_mem member
    refine ⟨joined [','] items, ?_, fun settled => ?_⟩
    · simp [textsOf, same, some]
    · exact unsettled ((settledElements elements).1 settled t member)
  | list several apart some =>
    refine ⟨t, ?_, unsettled⟩
    rw [textsOf, if_neg apart]
    exact member

theorem rereadParagraph {r : Record} (asRead : AsRead r) {f : Field}
    (inside : f ∈ r.version.fields) (other : f ≠ .metadataVersion) :
    (paragraph f ((read (Utf8.encode r.render.value)).record.given f)).length ≤
      (paragraph f ((r.given f).map readBack)).length := by
  rw [givenPlain (rereadFound r).2.1 other, rereadLabel r inside other]
  refine restoredShorter (fun line => ?_) fun single => ?_
  · rw [List.length_map]
    exact givenLine line
  · exact (givenSome asRead other single).imp_right fun some => by simpa using some

theorem unsteadyRender {r : Record} (asRead : AsRead r) (unsteady : ¬ Steady r)
    (version : (read (Utf8.encode r.render.value)).record.version = r.version) :
    (read (Utf8.encode r.render.value)).record.render.value.length < r.render.value.length := by
  have within := fun f inside other => rereadParagraph (f := f) asRead inside other
  generalize read (Utf8.encode r.render.value) = again at *
  rw [renderParagraphs again.record, renderParagraphs r, version]
  simp only [List.length_append, List.length_flatMap, Nat.add_lt_add_iff_left]
  refine List.sum_lt_sum _ _ (fun f member => ?_) ?_
  · obtain ⟨inside, other⟩ := suppliesInside member
    exact (within f inside other).trans (paragraphReadBack f (r.given f))
  · simp only [Steady, not_forall] at unsteady
    obtain ⟨key, value, found, t, member, unsettled⟩ := unsteady
    obtain ⟨f, inside, other, rfl⟩ := sourceInside asRead found
    refine ⟨f, by simp [inside, other], ?_⟩
    exact (within f inside other).trans_lt
      (paragraphUnsettled f (givenUnsettled asRead other found member unsettled))

theorem renderVersion {r s : Record} (same : r.render.value = s.render.value) :
    r.version = s.version := by
  have left := blockReceived r
  rw [same, blockReceived s] at left
  have headers : s.received = r.received := Except.ok.inj left
  have declared := declaredReceived r
  rw [← headers, declaredReceived s] at declared
  exact (Except.ok.inj declared).symm

/-- What was read is written in a form that stays the same from then on, exactly where no stored text
has a carriage return that a line would lose. -/
theorem normalForm {input : Bytes} (accepted : (read input).failure = none) :
    let r := (read input).record
    let again := read (Utf8.encode r.render.value)
    again.failure = none ∧ (again.record.render.value = r.render.value ↔ Steady r) ∧
      (Steady r → again.record.fields =
        if r.fields.find? Field.keywords.label = some (.list []) then
          r.fields.erase Field.keywords.label
        else r.fields) := by
  have asRead := readAsRead accepted
  dsimp only
  generalize (read input).record = r at asRead ⊢
  refine ⟨(rereadFound r).1, ⟨fun same => ?_, steadyRender asRead⟩, steadyFields asRead⟩
  by_contra unsteady
  have shorter := unsteadyRender asRead unsteady (renderVersion same)
  rw [same] at shorter
  exact absurd shorter (Nat.lt_irrefl _)

end

def untidy : Bytes :=
  Utf8.encode
    "Metadata-Version: 1.2\nname: demo\nDescription: one\r\r\n\ttwo\nKeywords: ,\n".toList

attribute [local instance] Host.linux

theorem normalFormUntidy :
    (read untidy).failure = none ∧ ¬ Steady (read untidy).record ∧
      (read (Utf8.encode (read untidy).record.render.value)).failure = none := by
  have accepted : (read untidy).failure = none := by decide +kernel
  obtain ⟨again, fixed, _⟩ := normalForm accepted
  exact ⟨accepted, mt fixed.2 (by decide +kernel), again⟩

end Record
end PkgInfo
