/-! What a step yields besides its value: a failure, or notes met on the way. Notes are data, in the
order they were met, so a caller decides whether they are shown. -/
namespace PkgInfo

instance exceptDecidableEq {ε α : Type} [DecidableEq ε] [DecidableEq α] : DecidableEq (Except ε α)
  | .ok a, .ok b => if same : a = b then isTrue (by rw [same]) else isFalse (by simpa using same)
  | .error a, .error b =>
    if same : a = b then isTrue (by rw [same]) else isFalse (by simpa using same)
  | .ok _, .error _ => isFalse nofun
  | .error _, .ok _ => isFalse nofun

theorem mappedOk {ε α β : Type} {f : α → β} {outcome : Except ε α} {b : β} :
    outcome.map f = .ok b ↔ ∃ a, outcome = .ok a ∧ f a = b := by
  cases outcome <;> simp [Except.map]

theorem mappedError {ε α β : Type} {f : α → β} {outcome : Except ε α} {e : ε} :
    outcome.map f = .error e ↔ outcome = .error e := by
  cases outcome <;> simp [Except.map]

theorem boundOk {ε α β : Type} {f : α → Except ε β} {outcome : Except ε α} {b : β} :
    (outcome >>= f) = .ok b ↔ ∃ a, outcome = .ok a ∧ f a = .ok b := by
  cases outcome <;> simp [bind, Except.bind]

theorem boundError {ε α β : Type} {f : α → Except ε β} {outcome : Except ε α} {e : ε} :
    (outcome >>= f) = .error e ↔ outcome = .error e ∨ ∃ a, outcome = .ok a ∧ f a = .error e := by
  cases outcome <;> simp [bind, Except.bind]

structure Logged (ω α : Type) where
  value : α
  log : List ω
  deriving DecidableEq, Repr

namespace Logged
variable {ω α β : Type}

instance : Monad (Logged ω) where
  pure a := ⟨a, []⟩
  bind m f := ⟨(f m.value).value, m.log ++ (f m.value).log⟩

def note (entry : ω) : Logged ω Unit := ⟨(), [entry]⟩

@[simp] theorem valuePure (a : α) : (pure a : Logged ω α).value = a := rfl
@[simp] theorem logPure (a : α) : (pure a : Logged ω α).log = [] := rfl
@[simp] theorem valueBind (m : Logged ω α) (f : α → Logged ω β) :
    (m >>= f).value = (f m.value).value := rfl
@[simp] theorem logBind (m : Logged ω α) (f : α → Logged ω β) :
    (m >>= f).log = m.log ++ (f m.value).log := rfl

def each (f : α → Logged ω β) : List α → Logged ω (List β)
  | [] => pure []
  | a :: rest => do
    let b ← f a
    let others ← each f rest
    pure (b :: others)

theorem valueEach (f : α → Logged ω β) (items : List α) :
    (each f items).value = items.map fun a => (f a).value := by
  induction items with
  | nil => rfl
  | cons a rest ih => simp [each, ih]

theorem logEach (f : α → Logged ω β) (items : List α) :
    (each f items).log = items.flatMap fun a => (f a).log := by
  induction items with
  | nil => rfl
  | cons a rest ih => simp [each, ih]

end Logged
end PkgInfo
