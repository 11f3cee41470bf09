import PkgInfo.Proofs.Record.Reachable

/-! The two ways of reading a field are one look-up with a switch. Left lenient it never fails: a value
whose marker cannot be decided is left out with a warning. Made strict it warns of nothing and fails at
the first such value, so where there is none both give the same. -/
namespace PkgInfo

namespace Record

def notice (field : Text) (spoilt : Text × Marker.Fault) : Warning :=
  .hidden field spoilt.1 spoilt.2

theorem screensIff {r : Record} {field : Text} :
    r.screens field = true ↔
      r.platformDependent = true ∧ Field.categoryOf field ≠ .freeText := by
  unfold screens
  cases Field.categoryOf field <;> simp [Field.Category.isMarked]

theorem textOrUnknown {field : Text} (single : (Field.categoryOf field).isList = false)
    (kept : Option Text) : textOr field kept = .text (kept.getD Value.unknown) := by
  cases kept <;> simp [textOr, Value.default, single]

section
variable [Host]

def sift (r : Record) (strict : Bool) (field text : Text) :
    Logged Warning (Except Error (Option Text)) :=
  match r.judge text with
  | .keep value => pure (.ok (some value))
  | .drop => pure (.ok none)
  | .unclear value cause =>
    if strict then pure (.error (.marker cause))
    else do
      Logged.note (.hidden field value cause)
      pure (.ok none)

def siftEach (r : Record) (strict : Bool) (field : Text) :
    List Text → Logged Warning (Except Error (List Text))
  | [] => pure (.ok [])
  | text :: rest => do
    match ← r.sift strict field text with
    | .error error => pure (.error error)
    | .ok kept =>
      let others ← siftEach r strict field rest
      pure (others.map (kept.toList ++ ·))

def lookup (r : Record) (strict : Bool) (field : Text) : Logged Warning (Except Error Value) :=
  if field = Field.metadataVersion.label then pure (.ok (.text r.version.text))
  else match r.fields.find? field with
    | none => pure (.ok (Value.default (Field.categoryOf field)))
    | some value =>
      if r.screens field then
        match value with
        | .text t => do
          let kept ← r.sift strict field t
          pure (kept.map (textOr field))
        | .list items => do
          let kept ← r.siftEach strict field items
          pure (kept.map .list)
      else pure (.ok value)

def shown (r : Record) (text : Text) : Option Text :=
  match Text.splitOnce ';' text with
  | none => some text
  | some (front, behind) =>
    if Marker.interpret .host r.context (Text.trim behind) = .ok true then some (Text.trim front)
    else none

def spoilt? (r : Record) (text : Text) : Option (Text × Marker.Fault) :=
  match Text.splitOnce ';' text with
  | none => none
  | some (front, behind) =>
    match Marker.interpret .host r.context (Text.trim behind) with
    | .ok _ => none
    | .error cause => some (Text.trim front, cause)

def shownValue (r : Record) : Value → Value
  | .text t => .text ((r.shown t).getD Value.unknown)
  | .list items => .list (items.filterMap r.shown)

inductive Judged (r : Record) (text : Text) : Verdict → Prop where
  | keep {value} (shows : r.shown text = some value) (clear : r.spoilt? text = none) :
      Judged r text (.keep value)
  | drop (hides : r.shown text = none) (clear : r.spoilt? text = none) : Judged r text .drop
  | unclear {value cause} (hides : r.shown text = none)
      (spoilt : r.spoilt? text = some (value, cause)) : Judged r text (.unclear value cause)

theorem judged (r : Record) (text : Text) : Judged r text (r.judge text) := by
  unfold judge Value.splitMarker
  cases split : Text.splitOnce ';' text with
  | none => exact .keep (by simp [shown, split]) (by simp [spoilt?, split])
  | some parts =>
    obtain ⟨front, behind⟩ := parts
    cases outcome : Marker.interpret .host r.context (Text.trim behind) with
    | error cause =>
      simp only [outcome]
      exact .unclear (by simp [shown, split, outcome]) (by simp [spoilt?, split, outcome])
    | ok holds =>
      cases holds with
      | true =>
        simp only [outcome]
        exact .keep (by simp [shown, split, outcome]) (by simp [spoilt?, split, outcome])
      | false =>
        simp only [outcome]
        exact .drop (by simp [shown, split, outcome]) (by simp [spoilt?, split, outcome])

def unlessSpoilt {α : Type} (r : Record) (items : List Text) (result : α) : Except Error α :=
  match items.findSome? r.spoilt? with
  | none => .ok result
  | some (_, cause) => .error (.marker cause)

theorem screenShown (r : Record) (field text : Text) :
    r.screen field text = ⟨r.shown text, ((r.spoilt? text).map (notice field)).toList⟩ := by
  unfold screen
  have judgement := judged r text
  generalize r.judge text = verdict at judgement
  cases judgement with
  | keep shows clear => rw [shows, clear]; rfl
  | drop hides clear => rw [hides, clear]; rfl
  | unclear hides spoilt => rw [hides, spoilt]; rfl

theorem screenStrictlyShown (r : Record) (text : Text) :
    r.screenStrictly text = r.unlessSpoilt [text] (r.shown text) := by
  unfold screenStrictly unlessSpoilt
  have judgement := judged r text
  generalize r.judge text = verdict at judgement
  cases judgement with
  | keep shows clear => simp [shows, clear]
  | drop hides clear => simp [hides, clear]
  | unclear hides spoilt => simp [spoilt]

theorem screenEachShown (r : Record) (field : Text) (items : List Text) :
    Logged.each (r.screen field) items =
      ⟨items.map r.shown, (items.filterMap r.spoilt?).map (notice field)⟩ := by
  induction items with
  | nil => rfl
  | cons text rest ih =>
    rw [Logged.each, ih, screenShown]
    cases spoilt : r.spoilt? text <;> simp [spoilt, bind, pure]

theorem screenEachStrictly (r : Record) (items : List Text) :
    items.mapM r.screenStrictly = r.unlessSpoilt items (items.map r.shown) := by
  induction items with
  | nil => rfl
  | cons text rest ih =>
    rw [List.mapM_cons, ih, screenStrictlyShown]
    unfold unlessSpoilt
    cases spoilt : r.spoilt? text with
    | some pair => simp [spoilt, bind, Except.bind]
    | none =>
      cases later : rest.findSome? r.spoilt? <;>
        simp [spoilt, later, bind, Except.bind, pure, Except.pure]

theorem shownEach (r : Record) (items : List Text) :
    (items.map r.shown).filterMap id = items.filterMap r.shown := by
  rw [List.filterMap_map]
  rfl

theorem siftScreen (r : Record) (field text : Text) :
    r.sift false field text = ⟨.ok (r.screen field text).value, (r.screen field text).log⟩ := by
  unfold sift screen
  cases r.judge text <;> rfl

theorem siftStrictly (r : Record) (field text : Text) :
    r.sift true field text = ⟨r.screenStrictly text, []⟩ := by
  unfold sift screenStrictly
  cases r.judge text <;> rfl

theorem siftEachScreen (r : Record) (field : Text) (items : List Text) :
    r.siftEach false field items =
      ⟨.ok ((Logged.each (r.screen field) items).value.filterMap id),
        (Logged.each (r.screen field) items).log⟩ := by
  induction items with
  | nil => rfl
  | cons text rest ih =>
    rw [siftEach, siftScreen, ih]
    cases kept : (r.screen field text).value <;> simp [bind, pure, Logged.each, kept, Except.map]

theorem siftEachStrictly (r : Record) (field : Text) (items : List Text) :
    r.siftEach true field items =
      ⟨(items.mapM r.screenStrictly).map fun kept => kept.filterMap id, []⟩ := by
  induction items with
  | nil => rfl
  | cons text rest ih =>
    rw [siftEach, siftStrictly, ih, List.mapM_cons]
    cases first : r.screenStrictly text with
    | error error => simp [bind, pure, Except.bind, Except.map]
    | ok kept =>
      cases later : rest.mapM r.screenStrictly <;> cases kept <;>
        simp [bind, pure, Except.bind, Except.pure, Except.map]

theorem lookupLenient (r : Record) (name : Text) :
    r.lookup false (Field.canonical name) = ⟨.ok (r.get name).value, (r.get name).log⟩ := by
  unfold lookup get
  by_cases isVersion : Field.canonical name = Field.metadataVersion.label
  · simp [isVersion, pure]
  · cases found : r.fields.find? (Field.canonical name) with
    | none => simp [isVersion, found, pure]
    | some value =>
      by_cases screened : r.screens (Field.canonical name)
      · cases value with
        | text t => simp [isVersion, found, screened, siftScreen, bind, pure, Except.map]
        | list items => simp [isVersion, found, screened, siftEachScreen, bind, pure, Except.map]
      · simp [isVersion, found, screened, pure]

theorem lookupStrict (r : Record) (name : Text) :
    r.lookup true (Field.canonical name) = ⟨r.tryGet name, []⟩ := by
  unfold lookup tryGet
  by_cases isVersion : Field.canonical name = Field.metadataVersion.label
  · simp [isVersion, pure]
  · cases found : r.fields.find? (Field.canonical name) with
    | none => simp [isVersion, found, pure]
    | some value =>
      by_cases screened : r.screens (Field.canonical name)
      · cases value with
        | text t => simp [isVersion, found, screened, siftStrictly, bind, pure]
        | list items =>
          have once : ((items.mapM r.screenStrictly).map fun kept => kept.filterMap id).map
              Value.list = (items.mapM r.screenStrictly).map fun kept =>
                .list (kept.filterMap id) := by
            cases items.mapM r.screenStrictly <;> rfl
          simp only [isVersion, found, screened, if_true, if_false, siftEachStrictly, bind, pure,
            List.append_nil, once]
      · simp [isVersion, found, screened, pure]

section
variable {r : Record} {name : Text}
  (other : Field.canonical name ≠ Field.metadataVersion.label)
include other

theorem readUnscreened (plain : r.fields.find? (Field.canonical name) = none ∨
      ¬ r.screens (Field.canonical name) = true) :
    r.get name = ⟨(r.fields.find? (Field.canonical name)).getD
        (Value.default (Field.categoryOf (Field.canonical name))), []⟩ ∧
      r.tryGet name = .ok ((r.fields.find? (Field.canonical name)).getD
        (Value.default (Field.categoryOf (Field.canonical name)))) := by
  unfold get tryGet
  cases found : r.fields.find? (Field.canonical name) with
  | none => simp [other, found, pure]
  | some value =>
    rw [found] at plain
    simp [other, found, plain.resolve_left nofun, pure]

variable {value : Value} (found : r.fields.find? (Field.canonical name) = some value)
  (screened : r.screens (Field.canonical name) = true)
  (shape : value.isList = (Field.categoryOf (Field.canonical name)).isList)
include found screened shape

theorem getScreened : r.get name = ⟨r.shownValue value,
    (value.asList.filterMap r.spoilt?).map (notice (Field.canonical name))⟩ := by
  cases value with
  | text t =>
    have line : ((r.spoilt? t).map (notice (Field.canonical name))).toList =
        ([t].filterMap r.spoilt?).map (notice (Field.canonical name)) := by
      cases spoilt : r.spoilt? t <;> simp [spoilt]
    simp [get, other, found, screened, screenShown, line, bind, pure, shownValue, Value.asList,
      textOrUnknown shape.symm]
  | list items =>
    simp only [get, other, found, screened, if_true, if_false, screenEachShown, bind, pure,
      List.append_nil, shownEach, shownValue, Value.asList]

theorem tryGetScreened : r.tryGet name = r.unlessSpoilt value.asList (r.shownValue value) := by
  cases value with
  | text t =>
    simp only [tryGet, other, found, screened, if_true, if_false, screenStrictlyShown, unlessSpoilt,
      shownValue, Value.asList]
    cases [t].findSome? r.spoilt? <;> simp [Except.map, textOrUnknown shape.symm]
  | list items =>
    simp only [tryGet, other, found, screened, if_true, if_false, screenEachStrictly, unlessSpoilt,
      shownValue, Value.asList]
    cases items.findSome? r.spoilt? <;> simp only [Except.map, shownEach]

end

/-- A lenient look-up always gives a value, and a strict one gives the same or the first cause for
which a value was left out. Without markers to look at both give what is stored. -/
theorem readingsAgree {r : Record} (reachable : Reachable r) (name : Text)
    (other : Field.canonical name ≠ Field.metadataVersion.label) :
    let field := Field.canonical name
    let stored := r.fields.find? field
    let plain := stored.getD (Value.default (Field.categoryOf field))
    r.lookup false field = ⟨.ok (r.get name).value, (r.get name).log⟩ ∧
      r.lookup true field = ⟨r.tryGet name, []⟩ ∧
      (r.platformDependent = false ∨ Field.categoryOf field = .freeText ∨ stored = none →
        r.get name = ⟨plain, []⟩ ∧ r.tryGet name = .ok plain) ∧
      ∀ value, r.platformDependent = true → Field.categoryOf field ≠ .freeText →
        stored = some value →
        (r.get name).value = r.shownValue value ∧
          (r.get name).log = (value.asList.filterMap r.spoilt?).map (notice field) ∧
          (value.asList.findSome? r.spoilt? = none → r.tryGet name = .ok (r.get name).value) ∧
          ∀ part cause, value.asList.findSome? r.spoilt? = some (part, cause) →
            r.tryGet name = .error (.marker cause) := by
  intro field stored plain
  refine ⟨lookupLenient r name, lookupStrict r name, fun unseen => ?_, ?_⟩
  · refine readUnscreened other ?_
    rw [screensIff]
    rcases unseen with off | prose | unset
    · exact .inr fun seen => by simp [off] at seen
    · exact .inr fun seen => seen.2 prose
    · exact .inl unset
  · intro value on marked found
    have screened : r.screens field = true := screensIff.2 ⟨on, marked⟩
    have shape := (reachableSound reachable).shaped field value found
    have strict := tryGetScreened other found screened shape
    rw [getScreened other found screened shape]
    refine ⟨rfl, rfl, fun clear => ?_, fun part cause first => ?_⟩
    · rw [strict, unlessSpoilt, clear]
    · rw [strict, unlessSpoilt, first]

end

def selective : Record :=
  run empty [
    .set "Classifier".toList (.list ["plain".toList, "a; nope == 'x'".toList,
      " b ; sys.platform == 'linux'".toList, "c; os.name == 'nt'".toList, "d; (".toList]),
    .platformDependent true]

attribute [local instance] Host.linux

theorem readingsAgreeSelective :
    Reachable selective ∧
      (selective.get "classifier".toList).value = .list ["plain".toList, "b".toList] ∧
      (selective.get "classifier".toList).log.length = 2 ∧
      selective.tryGet "classifier".toList =
        .error (.marker (.undecided (.unknownVariable "nope".toList))) := by
  have reachable : Reachable selective := ⟨_, rfl⟩
  obtain ⟨_, _, _, seen⟩ := readingsAgree reachable "classifier".toList (by decide +kernel)
  obtain ⟨shows, log, _, first⟩ := seen _ rfl (by decide +kernel) rfl
  refine ⟨reachable, ?_, ?_, first "a".toList _ (by decide +kernel)⟩
  · rw [shows]
    decide +kernel
  · rw [log]
    decide +kernel

end Record
end PkgInfo
