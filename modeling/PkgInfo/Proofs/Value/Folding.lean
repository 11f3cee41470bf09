import PkgInfo.Value.Basic
import PkgInfo.Proofs.Text.Lines

/-! Folding and unfolding, line by line. What folding puts in front of lines unfolding takes off, and
a folded text comes back from its lines as the fold of what the text itself would come back as. -/
namespace PkgInfo.Value
open Text

def barred : List Text → List Text
  | [] => []
  | first :: others => first :: others.map (bar ++ ·)

def unbarred : List Text → List Text
  | [] => []
  | first :: others => first :: others.map withoutBar

theorem barFree : '\n' ∉ bar := by decide

theorem withoutBarBar (line : Text) : withoutBar (bar ++ line) = line := by
  simp [withoutBar, stripLead?]

theorem unbarredBarred (lines : List Text) : unbarred (barred lines) = lines := by
  cases lines with
  | nil => rfl
  | cons first others => simp [barred, unbarred, Function.comp_def, withoutBarBar]

theorem foldJoined (text : Text) : fold text = joined ['\n'] (barred (pieces '\n' text)) := by
  obtain ⟨first, others, cut⟩ := List.exists_cons_of_ne_nil (piecesNonempty '\n' text)
  rw [fold, cut, barred, joinedCons, joinedCons, List.flatMap_map]
  simp

theorem unfoldJoined (text : Text) : unfold text = joined ['\n'] (unbarred (pieces '\n' text)) := by
  obtain ⟨first, others, cut⟩ := List.exists_cons_of_ne_nil (piecesNonempty '\n' text)
  simp only [unfold, cut, unbarred]

theorem piecesFold (text : Text) : pieces '\n' (fold text) = barred (pieces '\n' text) := by
  rw [foldJoined]
  obtain ⟨first, others, cut⟩ := List.exists_cons_of_ne_nil (piecesNonempty '\n' text)
  have free : ∀ line ∈ first :: others, '\n' ∉ line := fun line member =>
    markNotInPiece (cut ▸ member)
  rw [cut, barred]
  refine piecesJoined (by simp) fun line member => ?_
  rcases List.mem_cons.1 member with rfl | later
  · exact free _ List.mem_cons_self
  · obtain ⟨plain, inside, rfl⟩ := List.mem_map.1 later
    simp only [List.mem_append, not_or]
    exact ⟨barFree, free plain (List.mem_cons_of_mem _ inside)⟩

theorem unfoldFold (text : Text) : unfold (fold text) = text := by
  rw [unfoldJoined, piecesFold, unbarredBarred, joinedPieces]

theorem foldInjective {left right : Text} (same : fold left = fold right) : left = right := by
  rw [← unfoldFold left, same, unfoldFold]

theorem barredMap (lines : List Text) :
    (barred lines).map (dropLastIf '\r') = barred (lines.map (dropLastIf '\r')) := by
  cases lines with
  | nil => rfl
  | cons first others =>
    have each : ∀ line, dropLastIf '\r' (bar ++ line) = bar ++ dropLastIf '\r' line :=
      dropLastIfAppend (by decide)
    simp [barred, Function.comp_def, each]

-- A bar is no carriage return, so folding does not come between a line and its end.
theorem readBackFold (text : Text) : readBack (fold text) = fold (readBack text) := by
  rw [readBack, piecesFold, barredMap, foldJoined, piecesReadBack]

theorem unfoldFree {text : Text} (free : '\n' ∉ text) : unfold text = text := by
  simp [unfold, piecesFree free, joined]

theorem unfoldEqFree {text line : Text} (free : '\n' ∉ line) :
    unfold text = line ↔ text = line := by
  constructor
  · intro same
    rw [unfoldJoined] at same
    obtain ⟨first, others, cut⟩ := List.exists_cons_of_ne_nil (piecesNonempty '\n' text)
    rw [cut, unbarred, joinedCons] at same
    cases others with
    | nil =>
      have whole := joinedPieces '\n' text
      rw [cut] at whole
      simpa [← whole, joined] using same
    | cons second rest => exact absurd (by simp [← same]) free
  · rintro rfl
    exact unfoldFree free

theorem foldCons (c : Char) (rest : Text) :
    fold (c :: rest) = (if c = '\n' then '\n' :: bar else [c]) ++ fold rest := by
  unfold fold
  obtain ⟨first, others, cut⟩ := List.exists_cons_of_ne_nil (piecesNonempty '\n' rest)
  by_cases feed : c = '\n'
  · simp [pieces, feed, cut, joinedCons]
  · simp [pieces, feed, cut, extendFirst, joinedCons]

theorem foldSublist {left right : Text} (shorter : left.Sublist right) :
    (fold left).Sublist (fold right) := by
  induction shorter with
  | slnil => exact List.Sublist.refl _
  | cons c tail ih =>
    rw [foldCons]
    exact ih.trans (List.sublist_append_right _ _)
  | cons_cons c tail ih =>
    rw [foldCons, foldCons]
    exact (List.Sublist.refl _).append ih

theorem foldShorter {left right : Text} (shorter : left.Sublist right) (other : left ≠ right) :
    (fold left).length < (fold right).length := by
  have whole := foldSublist shorter
  refine Nat.lt_of_le_of_ne whole.length_le fun same => ?_
  exact other (foldInjective (whole.eq_of_length same))

end PkgInfo.Value
