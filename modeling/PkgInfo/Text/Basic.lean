/-! Text as the list of its characters, and the few operations on it that know no character class.
Every name, value and message part of the library is a `Text`; byte counts are those of UTF-8. -/
namespace PkgInfo

abbrev Text := List Char

namespace Text

def byteSize : Text → Nat
  | [] => 0
  | c :: rest => c.utf8Size + byteSize rest

def splitOnce (mark : Char) : Text → Option (Text × Text)
  | [] => none
  | c :: rest =>
    if c = mark then some ([], rest)
    else (splitOnce mark rest).map fun (left, right) => (c :: left, right)

def extendFirst (c : Char) : List Text → List Text
  | [] => [[c]]
  | piece :: others => (c :: piece) :: others

def pieces (mark : Char) : Text → List Text
  | [] => [[]]
  | c :: rest => if c = mark then [] :: pieces mark rest else extendFirst c (pieces mark rest)

def joined (between : Text) : List Text → Text
  | [] => []
  | [piece] => piece
  | piece :: others => piece ++ between ++ joined between others

def occursIn (part : Text) : Text → Bool
  | [] => part.isEmpty
  | c :: rest => part.isPrefixOf (c :: rest) || occursIn part rest

def stripLead? (lead text : Text) : Option Text :=
  if lead.isPrefixOf text then some (text.drop lead.length) else none

def dropLastIf (last : Char) (text : Text) : Text :=
  if text.getLast? = some last then text.dropLast else text

def lowered (text : Text) : Text := text.map Char.toLower

def SameLetters (left right : Text) : Prop := lowered left = lowered right

instance (left right : Text) : Decidable (SameLetters left right) :=
  inferInstanceAs (Decidable (lowered left = lowered right))

theorem byteSizeAppend (left right : Text) :
    byteSize (left ++ right) = byteSize left + byteSize right := by
  induction left with
  | nil => simp [byteSize]
  | cons c rest ih => simp [byteSize, ih, Nat.add_assoc]

theorem byteSizePositive {text : Text} (some : text ≠ []) : 0 < byteSize text := by
  obtain ⟨c, rest, rfl⟩ := List.exists_cons_of_ne_nil some
  have size := c.utf8Size_pos
  simp only [byteSize]
  omega

theorem byteSizeSuffix {rest text : Text} (ends : rest <:+ text) : byteSize rest ≤ byteSize text := by
  obtain ⟨front, rfl⟩ := ends
  rw [byteSizeAppend]
  omega

theorem byteSizeShorter {rest text : Text} (ends : rest <:+ text) (shorter : rest.length < text.length) :
    byteSize rest < byteSize text := by
  obtain ⟨front, rfl⟩ := ends
  have some : front ≠ [] := by rintro rfl; simp at shorter
  have size := byteSizePositive some
  rw [byteSizeAppend]
  omega

theorem extendFirstNonempty (c : Char) (pieces : List Text) : extendFirst c pieces ≠ [] := by
  cases pieces <;> simp [extendFirst]

theorem joinedExtendFirst (between : Text) (c : Char) {pieces : List Text} (some : pieces ≠ []) :
    joined between (extendFirst c pieces) = c :: joined between pieces := by
  cases pieces with
  | nil => exact absurd rfl some
  | cons piece others => cases others <;> simp [extendFirst, joined]

theorem piecesNonempty (mark : Char) (text : Text) : pieces mark text ≠ [] := by
  cases text with
  | nil => simp [pieces]
  | cons c rest =>
    simp only [pieces]
    split
    · simp
    · exact extendFirstNonempty c _

theorem joinedPieces (mark : Char) (text : Text) : joined [mark] (pieces mark text) = text := by
  induction text with
  | nil => rfl
  | cons c rest ih =>
    have some := piecesNonempty mark rest
    simp only [pieces]
    split
    · next same =>
      subst same
      cases cut : pieces c rest with
      | nil => exact absurd cut some
      | cons piece others => rw [cut] at ih; simp [joined, ih]
    · rw [joinedExtendFirst [mark] c some, ih]

theorem splitOnceSome {mark : Char} {text left right : Text}
    (cut : splitOnce mark text = some (left, right)) :
    text = left ++ mark :: right ∧ mark ∉ left := by
  induction text generalizing left with
  | nil => simp [splitOnce] at cut
  | cons c rest ih =>
    simp only [splitOnce] at cut
    split at cut
    · next same => cases cut; simp [same]
    · next other =>
      obtain ⟨⟨l, r⟩, tail, same⟩ := Option.map_eq_some_iff.1 cut
      cases same
      obtain ⟨whole, clean⟩ := ih tail
      exact ⟨by simp [whole], by simp [clean, Ne.symm other]⟩

theorem splitOnceNone {mark : Char} {text : Text} :
    splitOnce mark text = none ↔ mark ∉ text := by
  induction text with
  | nil => simp [splitOnce]
  | cons c rest ih =>
    simp only [splitOnce]
    split
    · next same => simp [same]
    · next other => simp [ih, Ne.symm other]

theorem stripLeadSome {lead text rest : Text} :
    stripLead? lead text = some rest ↔ text = lead ++ rest := by
  unfold stripLead?
  constructor
  · intro found
    split at found
    · next leads =>
      obtain ⟨behind, rfl⟩ := List.isPrefixOf_iff_prefix.1 leads
      rw [List.drop_left] at found
      rw [Option.some.inj found]
    · contradiction
  · rintro rfl
    rw [if_pos (List.isPrefixOf_iff_prefix.2 (List.prefix_append lead rest)), List.drop_left]

end Text
end PkgInfo
