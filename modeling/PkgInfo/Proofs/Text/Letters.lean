import PkgInfo.Text.Blank

/-! What a text keeps when its letters change case: the characters that are no letters, each where it
stood. -/
namespace PkgInfo.Text

theorem upperIff {c : Char} : c.isUpper = true ↔ 65 ≤ c.toNat ∧ c.toNat ≤ 90 := decide_eq_true_iff

theorem lowerIff {c : Char} : c.isLower = true ↔ 97 ≤ c.toNat ∧ c.toNat ≤ 122 :=
  Bool.and_eq_true_iff.trans (and_congr decide_eq_true_iff decide_eq_true_iff)

theorem letterIff {c : Char} : c.isAlpha = true ↔ c.isUpper = true ∨ c.isLower = true :=
  Bool.or_eq_true_iff

theorem lowerEither (c : Char) : c.toLower = c ∨ c.isAlpha ∧ c.toLower.isAlpha := by
  unfold Char.toLower
  split
  · next upper =>
    have low : 65 ≤ c.toNat := upper.1
    have high : c.toNat ≤ 90 := upper.2
    have moved : (c.val + ('a'.val - 'A'.val)).toNat = c.toNat + 32 :=
      Nat.mod_eq_of_lt (show c.toNat + 32 < 2 ^ 32 by omega)
    refine .inr ⟨letterIff.2 (.inl (upperIff.2 ⟨low, high⟩)), letterIff.2 (.inr (lowerIff.2 ?_))⟩
    rw [Char.toNat, moved]
    omega
  · exact .inl rfl

theorem lowerMark {c mark : Char} (other : mark.isAlpha = false) : c.toLower = mark ↔ c = mark := by
  rcases lowerEither c with same | ⟨letter, lower⟩
  · rw [same]
  · constructor <;> rintro rfl
    · simp [other] at lower
    · simp [other] at letter

theorem letterSolid {c : Char} (letter : c.isAlpha) : isBlank c = false := by
  have between : 65 ≤ c.toNat ∧ c.toNat ≤ 122 := by
    rw [letterIff, upperIff, lowerIff] at letter
    omega
  simp only [isBlank, Ranges.contains, blankRanges, List.any_cons, List.any_nil, Bool.or_false,
    Bool.or_eq_false_iff, Bool.and_eq_false_iff, decide_eq_false_iff_not]
  omega

theorem lowerBlank (c : Char) : isBlank c.toLower = isBlank c := by
  rcases lowerEither c with same | ⟨letter, lower⟩
  · rw [same]
  · rw [letterSolid letter, letterSolid lower]

section
variable {left right : Text} {mark : Char}

theorem markRecased (same : SameLetters left right) (other : mark.isAlpha = false) :
    mark ∈ left ↔ mark ∈ right := by
  have lowered : ∀ text, mark ∈ lowered text ↔ mark ∈ text := by
    simp [lowered, lowerMark other]
  rw [← lowered, same, lowered]

theorem headRecased (same : SameLetters left right) (other : mark.isAlpha = false) :
    left.head? = some mark ↔ right.head? = some mark := by
  have lowered : ∀ text, (lowered text).head? = some mark ↔ text.head? = some mark := by
    simp [lowered, lowerMark other]
  rw [← lowered, same, lowered]

theorem endRecased (same : SameLetters left right) :
    (∃ c, left.getLast? = some c ∧ isBlank c = false) ↔
      ∃ c, right.getLast? = some c ∧ isBlank c = false := by
  have lowered : ∀ text, (∃ c, (lowered text).getLast? = some c ∧ isBlank c = false) ↔
      ∃ c, text.getLast? = some c ∧ isBlank c = false := by
    intro text
    simp only [lowered, List.getLast?_map]
    cases text.getLast? <;> simp [lowerBlank]
  rw [← lowered, same, lowered]

end

end PkgInfo.Text
