import PkgInfo.Text.Alphabetic
import PkgInfo.Text.Mark
import PkgInfo.Text.Number

/-! The two classes that names are made of. A word character is a letter, mark, decimal digit,
connector or joiner; an alphanumeric is a letter or any number. -/
namespace PkgInfo.Text

def connectorRanges : Ranges :=
  [(0x5F, 0x5F), (0x203F, 0x2040), (0x2054, 0x2054), (0xFE33, 0xFE34), (0xFE4D, 0xFE4F),
   (0xFF3F, 0xFF3F)]

def joinerRanges : Ranges := [(0x200C, 0x200D)]

def isWord (c : Char) : Bool :=
  isAlphabetic c || isDecimal c || connectorRanges.contains c || isMark c ||
    joinerRanges.contains c

theorem wordSolid {c : Char} (word : isWord c = true) : isBlank c = false := by
  have listed : ∀ range ∈ blankRanges, ∀ n ∈ List.range' range.1 (range.2 - range.1 + 1),
      isWord (Char.ofNat n) = false := by decide +kernel
  refine Bool.eq_false_iff.2 fun blank => ?_
  obtain ⟨range, member, within⟩ := List.any_eq_true.1 blank
  simp only [Bool.and_eq_true, decide_eq_true_eq] at within
  have apart := listed range member c.toNat (List.mem_range'_1.2 (by omega))
  rw [Char.ofNat_toNat, word] at apart
  exact Bool.noConfusion apart

def isAlphanumeric (c : Char) : Bool := isAlphabetic c || isNumber c

def isNameStart (c : Char) : Bool := c.isAlpha || c == '_'

def isNamePart (c : Char) : Bool := c.isAlphanum || c == '_'

end PkgInfo.Text
