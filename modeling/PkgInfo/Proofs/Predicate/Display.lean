import PkgInfo.Proofs.Predicate.Name

/-! The written form of predicates. What is read has a name that is cut off as a whole and constraints
with numbers in their normal form, and whatever is of this kind is read again from its written form. -/
namespace PkgInfo.Predicate
open Text Value

structure Standard (p : Predicate) : Prop where
  full : FullName p.name
  trimmed : trim p.name = p.name
  normal : ∀ c ∈ p.constraints, c.number.Normal

theorem readStandard {text : Text} {p : Predicate} (read : ofText text = .ok p) : p.Standard := by
  unfold ofText at read
  simp only at read
  split at read
  · next starts =>
    obtain ⟨constraints, listed, rfl⟩ := mappedOk.1 read
    exact ⟨trimFull (cutFull starts.1), trimTwice _, Constraint.listNormal listed⟩
  · contradiction

theorem listOneLine {cs : List Constraint} (normal : ∀ c ∈ cs, c.number.Normal) :
    '\n' ∉ joined ", ".toList (cs.map Constraint.display) := by
  have each : ∀ item ∈ cs.map Constraint.display, ∀ d ∈ item, d ≠ '\n' := by
    refine List.forall_mem_map.2 fun c member d inside => ?_
    have solid := Constraint.displaySolid (Number.readFormed (normal c member)).1 d inside
    rintro rfl
    exact absurd solid.1 (by decide)
  have between : ∀ d ∈ ", ".toList, d ≠ '\n' := List.all_iff_forall_prop.1 (by decide)
  exact fun feed => joinedEach between each '\n' feed rfl

theorem standardRead {p : Predicate} (standard : p.Standard) : ofText p.display = .ok p := by
  obtain ⟨name, constraints⟩ := p
  obtain ⟨full, trimmed, normal⟩ := standard
  cases constraints with
  | nil =>
    have shown : display ⟨name, []⟩ = name := List.append_nil name
    rw [shown, readAlone full trimmed]
  | cons first others =>
    have read := readParenthesized full trimmed (listOneLine normal)
    rw [Constraint.listRead normal] at read
    have parts : display ⟨name, first :: others⟩ = name ++ [' '] ++ ('(' ::
        joined ", ".toList ((first :: others).map Constraint.display) ++ [')']) := by
      simp [display]
    rw [parts, read]
    rfl

def canonical (text : Text) : Except Fault Text := (ofText text).map display

/-- What is read is read again, the same, from its written form, predicates as well as constraints. -/
theorem displayReadBack :
    (∀ text p, ofText text = .ok p → ofText p.display = .ok p) ∧
    (∀ text shown, canonical text = .ok shown → canonical shown = .ok shown) ∧
    ∀ text c, Constraint.ofText text = .ok c → Constraint.ofText c.display = .ok c := by
  refine ⟨fun text p read => standardRead (readStandard read), fun text shown same => ?_,
    fun text c read => Constraint.displayRead (Constraint.readNormal read)⟩
  obtain ⟨p, read, rfl⟩ := mappedOk.1 same
  rw [canonical, standardRead (readStandard read)]
  rfl

def looseText : Text := "\tFoo-\nbar .v1.( < 2.0rc1 ,, 1.5.post3 )".toList

def looseLess : Constraint := ⟨.less, ⟨[['2'], ['0']], some (.rc, [['1']]), none, none⟩⟩

def looseBare : Constraint := ⟨.equal, ⟨[['1'], ['5']], none, some ['3'], none⟩⟩

def loose : Predicate := ⟨"Foo-\nbar .v1.".toList, [looseLess, looseBare]⟩

theorem displayReadBackLoose :
    ofText looseText = .ok loose ∧ ofText loose.display = .ok loose ∧
    canonical looseText = .ok loose.display ∧ canonical loose.display = .ok loose.display ∧
    Constraint.ofText " 1.5.post3 ".toList = .ok looseBare ∧
    Constraint.ofText looseBare.display = .ok looseBare := by
  have read : ofText looseText = .ok loose := by decide +kernel
  have shown : canonical looseText = .ok loose.display := by decide +kernel
  have bare : Constraint.ofText " 1.5.post3 ".toList = .ok looseBare := by decide +kernel
  exact ⟨read, displayReadBack.1 _ _ read, shown, displayReadBack.2.1 _ _ shown, bare,
    displayReadBack.2.2 _ _ bare⟩

end PkgInfo.Predicate
