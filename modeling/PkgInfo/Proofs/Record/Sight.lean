import PkgInfo.Proofs.Record.Strict

/-! What is seen of a field, given how markers are decided. Of a record only its fields and version count;
its context counts through the decisions alone. -/
namespace PkgInfo

def verdict (decide : Text → Except Marker.Fault Bool) (text : Text) : Verdict :=
  match Text.splitOnce ';' text with
  | none => .keep text
  | some (front, behind) =>
    match decide (Text.trim behind) with
    | .ok true => .keep (Text.trim front)
    | .ok false => .drop
    | .error cause => .unclear (Text.trim front) cause

def Verdict.kept? : Verdict → Option Text
  | keep value => some value
  | drop | unclear _ _ => none

def Verdict.warning? (field : Text) : Verdict → Option Warning
  | keep _ | drop => none
  | unclear value cause => some (.hidden field value cause)

namespace Record
section
variable (decide : Text → Except Marker.Fault Bool) (field : Text)

def sifted (value : Value) : Logged Warning Value where
  value := match value with
    | .text t => .text ((verdict decide t).kept?.getD Value.unknown)
    | .list items => .list (items.filterMap fun t => (verdict decide t).kept?)
  log := value.asList.filterMap fun t => (verdict decide t).warning? field

def sight (r : Record) (siftsMarked : Bool) : Logged Warning Value :=
  if field = Field.metadataVersion.label then pure (.text r.version.text)
  else match r.fields.find? field with
    | none => pure (Value.default (Field.categoryOf field))
    | some value =>
      if siftsMarked = true ∧ Field.categoryOf field ≠ .freeText then sifted decide field value
      else pure value

end

section
variable [Host] {r : Record}

theorem shownVerdict :
    r.shown = fun text => (verdict (Marker.interpret .host r.context) text).kept? := by
  funext text
  unfold shown verdict
  cases Text.splitOnce ';' text with
  | none => rfl
  | some parts =>
    cases outcome : Marker.interpret .host r.context (Text.trim parts.2) with
    | error cause => simp [outcome, Verdict.kept?]
    | ok holds => cases holds <;> simp [outcome, Verdict.kept?]

theorem spoiltVerdict (field text : Text) : (r.spoilt? text).map (notice field) =
    (verdict (Marker.interpret .host r.context) text).warning? field := by
  unfold spoilt? verdict
  cases Text.splitOnce ';' text with
  | none => rfl
  | some parts =>
    cases outcome : Marker.interpret .host r.context (Text.trim parts.2) with
    | error cause => simp [outcome, Verdict.warning?, notice]
    | ok holds => cases holds <;> simp [outcome, Verdict.warning?]

theorem shownSifted (field : Text) (value : Value) :
    (⟨r.shownValue value, (value.asList.filterMap r.spoilt?).map (notice field)⟩ :
      Logged Warning Value) = sifted (Marker.interpret .host r.context) field value := by
  simp only [sifted, List.map_filterMap, spoiltVerdict]
  cases value <;> simp only [shownValue, shownVerdict]

theorem getSight (sound : Sound r) (name : Text) : r.get name =
    r.sight (Marker.interpret .host r.context) (Field.canonical name) r.platformDependent := by
  unfold sight
  by_cases other : Field.canonical name = Field.metadataVersion.label
  · simp only [get, other, if_true]
  · rw [if_neg other]
    cases found : r.fields.find? (Field.canonical name) with
    | none =>
      rw [(readUnscreened other (.inl found)).1, found]
      rfl
    | some value =>
      dsimp only
      split
      · next screened =>
        rw [getScreened other found (screensIff.2 screened) (sound.shaped _ value found), shownSifted]
      · next plain =>
        rw [(readUnscreened other (.inr fun screened => plain (screensIff.1 screened))).1, found]
        rfl

end
end Record
end PkgInfo
