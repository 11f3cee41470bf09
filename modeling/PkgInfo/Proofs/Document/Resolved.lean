import PkgInfo.Proofs.Document.RoundTrip
import PkgInfo.Proofs.Record.Strict

/-! Documents written for one platform. A record that depends on the platform shows its values without
markers, so they are written without them, and what is read back looks the same on every platform. -/
namespace PkgInfo
open Text Value

def Value.Unmarked (value : Value) : Prop := ∀ t ∈ value.asList, ';' ∉ t

instance (value : Value) : Decidable value.Unmarked :=
  inferInstanceAs (Decidable (∀ t ∈ value.asList, ';' ∉ t))

namespace Record

def Resolved (r : Record) : Prop :=
  ∀ key value, r.fields.find? key = some value → Field.categoryOf key ≠ .freeText → value.Unmarked

def bare (r : Record) (name : Text) : Value :=
  if Field.canonical name = Field.metadataVersion.label then .text r.version.text
  else (r.fields.find? (Field.canonical name)).getD
    (Value.default (Field.categoryOf (Field.canonical name)))

theorem versionUnmarked (v : Version) : (Value.text v.text).Unmarked := by
  cases v <;> decide

theorem defaultUnmarked (category : Field.Category) : (Value.default category).Unmarked := by
  cases category <;> decide

theorem joinedUnmarked {items : List Text} (unmarked : ∀ t ∈ items, ';' ∉ t) :
    ';' ∉ joined [','] items := by
  have other : ∀ c ∈ joined [','] items, c ≠ ';' :=
    joinedEach (by simp) fun t member c inside same => unmarked t member (same ▸ inside)
  exact fun member => other ';' member rfl

theorem textsUnmarked (f : Field) {value : Value} (unmarked : value.Unmarked) :
    ∀ t ∈ textsOf f value, ';' ∉ t := by
  cases value with
  | text t => exact unmarked
  | list items =>
    simp only [textsOf]
    split
    · split
      · exact List.forall_mem_nil _
      · exact List.forall_mem_singleton.2 (joinedUnmarked unmarked)
    · exact unmarked

theorem splitUnmarked {text : Text} (unmarked : ';' ∉ text) :
    (Value.list (splitCommas text)).Unmarked := fun _ member inside =>
  unmarked ((splitCommasSublist text).subset ((infixJoined member).subset inside))

theorem restoredUnmarked {f : Field} {texts : List Text} {value : Value}
    (unmarked : ∀ t ∈ texts, ';' ∉ t) (given : restored f texts = some value) : value.Unmarked := by
  unfold restored at given
  split at given
  · split at given
    · contradiction
    · cases given
      split
      · exact splitUnmarked (joinedUnmarked unmarked)
      · exact unmarked
  · split at given
    · contradiction
    · split at given
      · contradiction
      · cases given
        exact List.forall_mem_singleton.2 (List.forall_mem_cons.1 unmarked).1

section
variable [Host]

theorem shownUnmarked {r : Record} {text part : Text} (shows : r.shown text = some part) :
    ';' ∉ part := by
  unfold shown at shows
  cases cut : splitOnce ';' text with
  | none =>
    rw [cut] at shows
    cases shows
    exact splitOnceNone.1 cut
  | some parts =>
    simp only [cut] at shows
    split at shows
    · cases shows
      exact fun inside => (splitOnceSome cut).2 ((trimSublist _).subset inside)
    · contradiction

theorem shownValueUnmarked (r : Record) (value : Value) : (r.shownValue value).Unmarked := by
  cases value with
  | text t =>
    cases shows : r.shown t with
    | none =>
      rw [shownValue, shows]
      exact defaultUnmarked .scalarText
    | some part => simpa [shownValue, shows, Unmarked, Value.asList] using shownUnmarked shows
  | list items =>
    intro part member
    obtain ⟨text, _, shows⟩ := List.mem_filterMap.1 member
    exact shownUnmarked shows

theorem getUnmarked {r : Record} (sound : Sound r) (on : r.platformDependent = true) {name : Text}
    (marked : Field.categoryOf (Field.canonical name) ≠ .freeText) :
    (r.get name).value.Unmarked := by
  by_cases isVersion : Field.canonical name = Field.metadataVersion.label
  · simpa [get, isVersion] using versionUnmarked r.version
  · cases found : r.fields.find? (Field.canonical name) with
    | none =>
      rw [(readUnscreened isVersion (.inl found)).1, found]
      exact defaultUnmarked _
    | some value =>
      have shape := sound.shaped _ value found
      rw [getScreened isVersion found (screensIff.2 ⟨on, marked⟩) shape]
      exact shownValueUnmarked r value

theorem unmarkedShown (r : Record) {text : Text} (unmarked : ';' ∉ text) :
    r.shown text = some text ∧ r.spoilt? text = none := by
  simp [shown, spoilt?, splitOnceNone.2 unmarked]

theorem unmarkedValue (r : Record) {value : Value} (unmarked : value.Unmarked) :
    r.shownValue value = value ∧ value.asList.filterMap r.spoilt? = [] ∧
      value.asList.findSome? r.spoilt? = none := by
  have clear : ∀ t ∈ value.asList, r.spoilt? t = none := fun t member =>
    (unmarkedShown r (unmarked t member)).2
  refine ⟨?_, List.filterMap_eq_nil_iff.2 clear, List.findSome?_eq_none_iff.2 clear⟩
  cases value with
  | text t => simp [shownValue, (unmarkedShown r (unmarked t List.mem_cons_self)).1]
  | list items =>
    have each : items.filterMap r.shown = items.filterMap some :=
      List.filterMap_congr fun t member => (unmarkedShown r (unmarked t member)).1
    rw [shownValue, each, List.filterMap_some]

theorem resolvedReading {r : Record} (sound : Sound r) (resolved : Resolved r) (name : Text) :
    r.get name = ⟨r.bare name, []⟩ ∧ r.tryGet name = .ok (r.bare name) := by
  by_cases isVersion : Field.canonical name = Field.metadataVersion.label
  · simp [get, tryGet, bare, isVersion, pure]
  · simp only [bare, isVersion, if_false]
    cases found : r.fields.find? (Field.canonical name) with
    | none =>
      have unset := readUnscreened isVersion (.inl found)
      rwa [found] at unset
    | some value =>
      cases screened : r.screens (Field.canonical name) with
      | false =>
        have plain := readUnscreened isVersion (.inr (Bool.eq_false_iff.1 screened))
        rwa [found] at plain
      | true =>
        have shape := sound.shaped _ value found
        obtain ⟨same, silent, clear⟩ :=
          unmarkedValue r (resolved _ value found (screensIff.1 screened).2)
        rw [getScreened isVersion found screened shape, tryGetScreened isVersion found screened shape,
          unlessSpoilt, same, silent, clear]
        exact ⟨rfl, rfl⟩

theorem resolvedAlike {r : Record} (sound : Sound r) (resolved : Resolved r) (name : Text)
    (platformDependent : Bool) (context : Option Marker.Context) :
    let seen : Record := {r with platformDependent, context}
    seen.get name = ⟨(r.get name).value, []⟩ ∧ seen.tryGet name = .ok (r.get name).value := by
  intro seen
  have kept : Sound seen := ⟨sound.least, sound.unmixed, sound.canonical, sound.shaped⟩
  rw [(resolvedReading sound resolved name).1]
  exact resolvedReading kept resolved name

theorem rereadResolved {r : Record} (sound : Sound r) (on : r.platformDependent = true) :
    Resolved (read (Utf8.encode r.render.value)).record := by
  intro key value found marked
  rw [(rereadFound r).2.2] at found
  obtain ⟨f, reached, given⟩ := Option.bind_eq_some_iff.1 found
  obtain rfl := Field.labelledSome reached
  split at given
  · refine restoredUnmarked (fun t member => ?_) given
    obtain ⟨text, inside, rfl⟩ := List.mem_map.1 member
    have shown : (r.get f.label).value.Unmarked :=
      getUnmarked sound on (by rwa [Field.canonicalLabel])
    have unmarked : ∀ t ∈ r.given f, ';' ∉ t := by
      unfold Record.given
      split
      · nofun
      · exact textsUnmarked f shown
    exact fun semicolon => unmarked text inside ((readBackSublist text).subset semicolon)
  · contradiction

/-- A record that depends on the platform shows no marker of a value that could have one. What is
written of it and read back is seen alike under all settings, and without a fault or a warning. -/
theorem resolvedDocument {r : Record} (reachable : Reachable r) (on : r.platformDependent = true) :
    (∀ name, Field.categoryOf (Field.canonical name) ≠ .freeText →
        ∀ t ∈ (r.get name).value.asList, ';' ∉ t) ∧
      let again := read (Utf8.encode r.render.value)
      again.failure = none ∧
        ∀ name platformDependent context,
          let seen : Record := {again.record with platformDependent, context}
          seen.get name = ⟨(again.record.get name).value, []⟩ ∧
            seen.tryGet name = .ok (again.record.get name).value := by
  have sound := reachableSound reachable
  refine ⟨fun name marked => getUnmarked sound on marked, (rereadFound r).1, ?_⟩
  exact resolvedAlike (reachableSound (readReachable _)) (rereadResolved sound on)

end

def onWindows : Record :=
  run empty [
    .set "Keywords".toList (.list ["a; sys.platform == 'linux'".toList, "b; nope == 'x'".toList]),
    .set "home_page".toList (.text "here ; os.name == 'nt'".toList),
    .set "Description".toList (.text "one; two\nthree".toList),
    .context (some (Table.ofList [("os.name".toList, "nt".toList)])),
    .platformDependent true]

attribute [local instance] Host.linux

theorem resolvedDocumentOnWindows :
    Reachable onWindows ∧ onWindows.platformDependent = true ∧
      ∀ platformDependent context,
        let seen : Record :=
          {(read (Utf8.encode onWindows.render.value)).record with platformDependent, context}
        seen.tryGet Field.homePage.label = .ok (.text "here".toList) ∧
          seen.tryGet Field.keywords.label = .ok (.list ["a".toList]) := by
  have reachable : Reachable onWindows := ⟨_, rfl⟩
  have on : onWindows.platformDependent = true := rfl
  have shows (f : Field) (inside : f ∈ onWindows.version.fields) (other : f ≠ .metadataVersion) :
      ((read (Utf8.encode onWindows.render.value)).record.get f.label).value =
        (restored f ((onWindows.given f).map readBack)).getD (Value.default f.category) := by
    rw [getPlain (rereadFound onWindows).2.1 other,
      rereadLabel onWindows inside other]
  obtain ⟨_, _, alike⟩ := resolvedDocument reachable on
  refine ⟨reachable, on, fun platformDependent context => ⟨?_, ?_⟩⟩
  · rw [(alike Field.homePage.label platformDependent context).2,
      shows .homePage (by decide +kernel) nofun]
    decide +kernel
  · rw [(alike Field.keywords.label platformDependent context).2,
      shows .keywords (by decide +kernel) nofun]
    decide +kernel

end Record
end PkgInfo
