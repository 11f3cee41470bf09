import PkgInfo.Command.Basic
import PkgInfo.Settings.Basic

/-! Variables given on the command line. Of the values for one variable the last stands, over the one in
the settings. -/
namespace PkgInfo.Command

def given? (name argument : Text) : Option Text :=
  match Text.splitOnce '=' argument with
  | some (front, value) => if Text.trim front = name then some value else none
  | none => none

def lastGiven (name : Text) (arguments : List Text) : Option Text :=
  (arguments.filterMap (given? name)).getLast?

theorem lastGivenCons (name argument : Text) (rest : List Text) :
    lastGiven name (argument :: rest) = (lastGiven name rest).or (given? name argument) := by
  unfold lastGiven
  cases given : given? name argument with
  | none => simp [given]
  | some value =>
    rw [List.filterMap_cons_some given, List.getLast?_cons]
    cases (rest.filterMap (given? name)).getLast? <;> rfl

theorem bindingGiven {argument name value : Text}
    (bound : bindingOfText argument = .ok (name, value)) (other : Text) :
    given? other argument = if name = other then some value else none := by
  unfold bindingOfText at bound
  unfold given?
  split at bound
  · contradiction
  · next front behind cut =>
    dsimp only at bound
    split at bound
    · contradiction
    · cases bound
      rw [cut]

theorem variableFound {arguments : List Text} {bindings : List (Text × Text)}
    (parsed : arguments.mapM bindingOfText = .ok bindings) (s : Settings) (name : Text) :
    (s.setVariables bindings).context.find? name =
      (lastGiven name arguments).or (s.context.find? name) := by
  induction arguments generalizing bindings s with
  | nil =>
    cases parsed
    rfl
  | cons argument rest ih =>
    rw [List.mapM_cons] at parsed
    obtain ⟨⟨key, value⟩, bound, parsed⟩ := boundOk.1 parsed
    obtain ⟨others, tail, same⟩ := boundOk.1 parsed
    cases same
    rw [lastGivenCons, bindingGiven bound, Option.or_assoc]
    refine (ih tail (s.setVariable key value)).trans (congrArg _ ?_)
    rw [Settings.setVariable, Table.findInsert]
    split <;> rfl

end PkgInfo.Command
