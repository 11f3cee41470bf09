import PkgInfo.Proofs.Value.TopLevel

/-! Values taken as one text and read again. Commas put between the entries of a list are where the list
was cut before, so whatever the category and the text, the value comes back. -/
namespace PkgInfo.Value
open Text

theorem topLevelAlone {start : Nat} {piece : Text} (inside : Sealed start piece) :
    topLevelPieces start piece = [piece] := by
  induction piece generalizing start with
  | nil => rfl
  | cons c rest ih =>
    obtain ⟨apart, tail⟩ := sealedCons.1 inside
    rw [topLevelPieces, if_neg apart, ih tail, extendFirst]

theorem topLevelBefore {start : Nat} {piece : Text} (inside : Sealed start piece)
    (closed : piece.foldl depthAfter start = 0) (rest : Text) :
    topLevelPieces start (piece ++ ',' :: rest) = piece :: topLevelPieces 0 rest := by
  induction piece generalizing start with
  | nil =>
    have top : start = 0 := closed
    rw [List.nil_append, topLevelPieces, if_pos ⟨rfl, top⟩]
  | cons c more ih =>
    obtain ⟨apart, tail⟩ := sealedCons.1 inside
    rw [List.cons_append, topLevelPieces, if_neg apart, ih tail closed, extendFirst]

theorem partedJoined {pieces : List Text} (parted : Parted pieces) (some : pieces ≠ []) :
    topLevelPieces 0 (joined [','] pieces) = pieces := by
  induction parted with
  | nil => contradiction
  | last inside => exact topLevelAlone inside
  | @cons piece others inside closed onward ih =>
    cases others with
    | nil => exact topLevelAlone inside
    | cons second rest =>
      rw [joined, List.append_assoc, List.singleton_append, topLevelBefore inside closed,
        ih (List.cons_ne_nil second rest)]
      simp

theorem splitTopLevelRejoined (text : Text) :
    splitTopLevelCommas (joined [','] (splitTopLevelCommas text)) = splitTopLevelCommas text := by
  cases items : splitTopLevelCommas text with
  | nil => rfl
  | cons first others =>
    have parted := splitTopLevelParted text
    rw [items] at parted
    rw [splitTopLevelCommas, partedJoined parted (List.cons_ne_nil first others), ← items]
    exact tidyTwice _

theorem tidyRejoined (text : Text) : tidy [joined [','] (tidy [text])] = tidy [text] := by
  by_cases nothing : trim text = []
  · have gone : tidy [text] = [] := by simp [tidy, nothing]
    rw [gone]
    rfl
  · have kept : tidy [text] = [trim text] := by simp [tidy, nothing]
    rw [kept, joined, ← kept, tidyTwice]

theorem coerceRejoined (category : Field.Category) (t : Text) :
    (text ((text t).coerce category).asText).coerce category = (text t).coerce category := by
  cases category with
  | scalarText | freeText => rfl
  | scalarList | elementList => exact congrArg list (splitCommasJoined (splitCommasElement t))
  | predicateList => exact congrArg list (splitTopLevelRejoined t)
  | pairList => exact congrArg list (tidyRejoined t)

end PkgInfo.Value
