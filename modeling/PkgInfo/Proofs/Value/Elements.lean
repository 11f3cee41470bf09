import PkgInfo.Value.Basic
import PkgInfo.Proofs.Text.Lines
import PkgInfo.Proofs.Text.Trimming

/-! Lists written with commas. Splitting gives elements that are not empty, have no blanks around them
and hold no comma, and elements of this kind come back from their line unchanged. -/
namespace PkgInfo.Value
open Text

structure Element (text : Text) : Prop where
  some : text ≠ []
  trimmed : trim text = text
  commaFree : ',' ∉ text

theorem elementEnds {text : Text} (element : Element text) : text.getLast? ≠ some '\r' := by
  have last := List.rdropWhile_last_not isBlank (trimStart text)
  rw [← trimEndDrops, ← trim, element.trimmed] at last
  intro ends
  rw [List.getLast?_eq_some_getLast element.some] at ends
  exact last element.some (by rw [Option.some.inj ends]; decide)

theorem memTidy {pieces : List Text} {item : Text} :
    item ∈ tidy pieces ↔ item ≠ [] ∧ ∃ piece ∈ pieces, trim piece = item := by
  simp [tidy, and_comm]

theorem tidyKept {items : List Text} (each : ∀ item ∈ items, item ≠ [] ∧ trim item = item) :
    tidy items = items := by
  have trimmed : items.map trim = items.map id :=
    List.map_inj_left.2 fun item member => (each item member).2
  rw [tidy, trimmed, List.map_id]
  exact List.filter_eq_self.2 fun item member => by simpa using (each item member).1

theorem tidyTwice (pieces : List Text) : tidy (tidy pieces) = tidy pieces := by
  refine tidyKept fun item member => ?_
  obtain ⟨some, piece, _, rfl⟩ := memTidy.1 member
  exact ⟨some, trimTwice piece⟩

theorem splitCommasElement (text : Text) : ∀ element ∈ splitCommas text, Element element := by
  intro element member
  obtain ⟨some, piece, cut, rfl⟩ := memTidy.1 member
  refine ⟨some, trimTwice piece, fun comma => ?_⟩
  exact markNotInPiece cut ((trimSublist piece).subset comma)

theorem tidyElements {items : List Text} (each : ∀ item ∈ items, Element item) :
    tidy items = items :=
  tidyKept fun item member => ⟨(each item member).some, (each item member).trimmed⟩

theorem splitCommasJoined {items : List Text} (each : ∀ item ∈ items, Element item) :
    splitCommas (joined [','] items) = items := by
  cases items with
  | nil => rfl
  | cons first others =>
    rw [splitCommas, piecesJoined (List.cons_ne_nil first others) fun item member =>
      (each item member).commaFree, tidyElements each]

theorem splitCommasSpread {items : List Text} (each : ∀ item ∈ items, Element item) :
    splitCommas (joined ", ".toList items) = items := by
  cases items with
  | nil => rfl
  | cons first others =>
    have spread : joined ", ".toList (first :: others) =
        joined [','] (first :: others.map (' ' :: ·)) := by
      rw [joinedCons, joinedCons, List.flatMap_map]
      rfl
    have free : ∀ item ∈ first :: others.map (' ' :: ·), ',' ∉ item := by
      obtain ⟨head, tail⟩ := List.forall_mem_cons.1 each
      refine List.forall_mem_cons.2 ⟨head.commaFree, List.forall_mem_map.2 fun item member => ?_⟩
      simpa using (tail item member).commaFree
    have trimmed : (first :: others.map (' ' :: ·)).map trim = (first :: others).map trim := by
      rw [List.map_cons, List.map_map]
      rfl
    rw [spread, splitCommas, piecesJoined (List.cons_ne_nil _ _) free, tidy, trimmed]
    exact tidyElements each

theorem tidyAppend (front behind : List Text) : tidy (front ++ behind) = tidy front ++ tidy behind := by
  simp [tidy]

theorem splitCommasApart {front rest : Text} (free : ',' ∉ front) (behind : ∀ c ∈ rest.head?, c = ',') :
    splitCommas (front ++ rest) = splitCommas front ++ splitCommas rest := by
  have first : splitCommas front = tidy [front] := by rw [splitCommas, piecesFree free]
  cases rest with
  | nil => simp [splitCommas, pieces, tidy, trim, trimStart, trimEnd]
  | cons c more =>
    obtain rfl : c = ',' := behind c rfl
    rw [first, splitCommas, piecesAtMark free]
    exact tidyAppend [front] _

-- Blanks around a line belong to its first and its last piece, where they are trimmed off.
theorem piecesAround {front behind : Text} (before : ∀ c ∈ front, isBlank c = true)
    (after : ∀ c ∈ behind, isBlank c = true) (text : Text) :
    (pieces ',' (front ++ text ++ behind)).map trim = (pieces ',' text).map trim := by
  have blankFree {blanks : Text} (blank : ∀ c ∈ blanks, isBlank c = true) : ',' ∉ blanks :=
    fun comma => absurd (blank ',' comma) (by decide)
  cases cut : splitOnce ',' text with
  | none =>
    have free := splitOnceNone.1 cut
    have whole : ',' ∉ front ++ text ++ behind := by simp [blankFree before, free, blankFree after]
    rw [piecesFree free, piecesFree whole, List.map_singleton, List.map_singleton, trimBehind after,
      trimFront before]
  | some parts =>
    obtain ⟨left, right⟩ := parts
    obtain ⟨rfl, free⟩ := splitOnceSome cut
    have first : ',' ∉ front ++ left := by simp [blankFree before, free]
    have later := @piecesAround [] behind nofun after right
    rw [← List.append_assoc, List.append_assoc _ _ behind, List.cons_append, piecesAtMark first,
      piecesAtMark free, List.map_cons, List.map_cons, trimFront before]
    exact congrArg _ later
termination_by text.length

theorem splitCommasTrim (text : Text) : splitCommas (trim text) = splitCommas text := by
  obtain ⟨front, behind, before, after, whole⟩ := trimParts text
  have same := piecesAround before after (trim text)
  rw [← whole] at same
  rw [splitCommas, splitCommas, tidy, tidy, same]

theorem joinedFilterSublist (between : Text) (keep : Text → Bool) (items : List Text) :
    (joined between (items.filter keep)).Sublist (joined between items) := by
  induction items with
  | nil => exact List.Sublist.refl _
  | cons first others ih =>
    cases others with
    | nil => by_cases kept : keep first <;> simp [kept, joined]
    | cons second rest =>
      by_cases kept : keep first
      · rw [List.filter_cons_of_pos kept]
        cases left : (second :: rest).filter keep with
        | nil => exact (List.sublist_append_left first between).trans (List.sublist_append_left _ _)
        | cons third more =>
          rw [left] at ih
          exact (List.Sublist.refl (first ++ between)).append ih
      · rw [List.filter_cons_of_neg kept]
        exact ih.trans (List.sublist_append_right _ _)

theorem splitCommasSublist (text : Text) : (joined [','] (splitCommas text)).Sublist text := by
  have trimmed := joinedMapSublist trimSublist [','] (pieces ',' text)
  have kept := joinedFilterSublist [','] (fun piece => decide (piece ≠ []))
    ((pieces ',' text).map trim)
  rw [joinedPieces] at trimmed
  exact kept.trans trimmed

theorem settledElements {items : List Text} (each : ∀ item ∈ items, Element item) :
    Settled (joined [','] items) ↔ ∀ item ∈ items, Settled item := by
  constructor
  · intro whole item member
    exact ⟨fun inside => whole.1 (inside.trans (infixJoined member)), elementEnds (each item member)⟩
  · exact settledJoined (by decide)

end PkgInfo.Value
