import PkgInfo.Marker.Evaluation

/-! Marker settings: whether markers are evaluated, and values for their variables. They are kept in a
document, in a format that is left open; whatever it is, the names of the variables are checked. -/
namespace PkgInfo

structure Settings where
  platformDependent : Bool
  context : Marker.Context
  deriving DecidableEq, Repr

class SettingsFormat where
  read : Text → Except Text Settings

namespace Settings

inductive Fault where
  | document (words : Text)
  | invalidName (name : Text)
  deriving DecidableEq, Repr

def Fault.message : Fault → Text
  | document words => words
  | invalidName name => "invalid variable name ".toList ++ Text.quoted name

def default : Settings := ⟨false, ∅⟩

def isVariableName (name : Text) : Bool :=
  name ≠ [] && name.head? ≠ some '.' && name.getLast? ≠ some '.' &&
    name.all fun c => Text.isAlphanumeric c || c == '_' || c == '.'

def checked (s : Settings) : Except Fault Settings :=
  match s.context.keys.find? (!isVariableName ·) with
  | some name => .error (.invalidName name)
  | none => .ok s

theorem checkedCases (s : Settings) : s.checked = .ok s ∨ ∃ name, s.checked = .error (.invalidName name) := by
  unfold checked
  cases s.context.keys.find? (!isVariableName ·) with
  | none => exact .inl rfl
  | some name => exact .inr ⟨name, rfl⟩

theorem checkedAccepted {s : Settings} :
    s.checked = .ok s ↔ ∀ key ∈ s.context.keys, isVariableName key = true := by
  unfold checked
  cases found : s.context.keys.find? (!isVariableName ·) with
  | none => simpa using found
  | some name =>
    have wrong := List.find?_some found
    simp only [reduceCtorEq, false_iff]
    intro each
    simp [each name (List.mem_of_find?_eq_some found)] at wrong

theorem checkedRefused {s : Settings} {name : Text} :
    s.checked = .error (.invalidName name) ↔ ∃ before after, s.context.keys = before ++ name :: after ∧
      (∀ other ∈ before, isVariableName other = true) ∧ isVariableName name = false := by
  have first : s.checked = .error (.invalidName name) ↔
      s.context.keys.find? (!isVariableName ·) = some name := by
    unfold checked
    cases s.context.keys.find? (!isVariableName ·) <;> simp
  rw [first, List.find?_eq_some_iff_append]
  constructor
  · intro ⟨wrong, before, after, keys, each⟩
    exact ⟨before, after, keys, by simpa using each, by simpa using wrong⟩
  · intro ⟨before, after, keys, each, wrong⟩
    exact ⟨by simpa using wrong, before, after, keys, by simpa using each⟩

def ofText [SettingsFormat] (document : Text) : Except Fault Settings :=
  match SettingsFormat.read document with
  | .error words => .error (.document words)
  | .ok s => s.checked

theorem checkedRead [SettingsFormat] {s : Settings} {document : Text}
    (read : SettingsFormat.read document = .ok s) : ofText document = s.checked := by
  simp only [ofText, read]

def setVariable (s : Settings) (name value : Text) : Settings :=
  {s with context := s.context.insert name value}

def setVariables (s : Settings) (pairs : List (Text × Text)) : Settings :=
  pairs.foldl (fun s pair => s.setVariable pair.1 pair.2) s

theorem switchKept (s : Settings) (pairs : List (Text × Text)) :
    (s.setVariables pairs).platformDependent = s.platformDependent := by
  induction pairs generalizing s with
  | nil => rfl
  | cons pair rest ih => exact ih (s.setVariable pair.1 pair.2)

end Settings
end PkgInfo
