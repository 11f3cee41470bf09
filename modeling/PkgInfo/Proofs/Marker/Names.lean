import PkgInfo.Marker.Token
import PkgInfo.Proofs.Text.Dotted

/-! Names in markers are identifiers put together with dots. A name is cut off a text as a whole if the
text behind it cannot go on with it, and what is cut off where a name starts is always one. -/
namespace PkgInfo.Marker
open Text

structure Identifier (text : Text) : Prop where
  starts : text.head?.any isNameStart = true
  parts : ∀ c ∈ text, isNamePart c = true

def DottedName (text : Text) : Prop := ∀ word ∈ pieces '.' text, Identifier word

theorem identifierIff {text : Text} :
    (text.head?.any isNameStart && text.all isNamePart) = true ↔ Identifier text := by
  rw [Bool.and_eq_true, List.all_eq_true]
  exact ⟨fun both => ⟨both.1, both.2⟩, fun word => ⟨word.starts, word.parts⟩⟩

instance (text : Text) : Decidable (Identifier text) := decidable_of_iff _ identifierIff

instance (text : Text) : Decidable (DottedName text) :=
  inferInstanceAs (Decidable (∀ word ∈ pieces '.' text, Identifier word))

example : DottedName "os.name".toList ∧ ¬ DottedName "os..name".toList := by decide

def EndsName (rest : Text) : Prop := ∀ c ∈ rest.head?, isNamePart c = false ∧ c ≠ '.'

theorem startIsPart {c : Char} (start : isNameStart c = true) : isNamePart c = true := by
  simp only [isNameStart, isNamePart, Char.isAlphanum, Bool.or_eq_true] at start ⊢
  exact start.imp_left .inl

theorem splitNothing {rest : Text} (ends : EndsName rest) : splitWord rest = ([], rest) := by
  cases rest with
  | nil => rfl
  | cons c rest =>
    obtain ⟨noPart, noDot⟩ := ends c rfl
    simp [splitWord, splitDotted, noPart, noDot]

theorem splitWords {words : List Text} (some : words ≠ []) (each : ∀ word ∈ words, Identifier word)
    {rest : Text} (ends : EndsName rest) :
    splitWord (joined ['.'] words ++ rest) = (joined ['.'] words, rest) :=
  dottedJoined some (fun word member => ⟨(each word member).starts, (each word member).parts⟩)
    (splitNothing ends)

theorem nameStarts {text : Text} (name : DottedName text) : text.head?.any isNameStart = true := by
  cases text with
  | nil => exact (name [] List.mem_cons_self).starts
  | cons c rest =>
    obtain ⟨first, others, cut⟩ := List.exists_cons_of_ne_nil (piecesNonempty '.' rest)
    unfold DottedName pieces at name
    split at name
    · exact absurd (name [] List.mem_cons_self).starts (by decide)
    · rw [cut] at name
      exact (name (c :: first) List.mem_cons_self).starts

theorem splitName {text rest : Text} (name : DottedName text) (ends : EndsName rest) :
    splitWord (text ++ rest) = (text, rest) := by
  have whole := splitWords (piecesNonempty '.' text) name ends
  rwa [joinedPieces] at whole

theorem splitDottedName {text : Text} (start : text.head?.any isNameStart = true) :
    DottedName (splitWord text).1 := by
  intro word member
  obtain ⟨starts, parts⟩ := dottedWords (fun _ => startIsPart) rfl start word member
  exact ⟨starts, parts⟩

end PkgInfo.Marker
