import PkgInfo.Text.Basic

/-! Texts as their lines. A text that is written as lines and read again loses one carriage return
at the end of each line; the texts that lose nothing are those without one there. -/
namespace PkgInfo.Text

theorem joinedCons (between first : Text) (others : List Text) :
    joined between (first :: others) = first ++ others.flatMap (between ++ ·) := by
  induction others generalizing first with
  | nil => simp [joined]
  | cons second rest ih => simp [joined, ih]

theorem joinedEach {P : Char → Prop} {between : Text} {items : List Text} (mark : ∀ c ∈ between, P c)
    (each : ∀ item ∈ items, ∀ c ∈ item, P c) : ∀ c ∈ joined between items, P c := by
  cases items with
  | nil => nofun
  | cons first others =>
    obtain ⟨head, tail⟩ := List.forall_mem_cons.1 each
    rw [joinedCons, List.forall_mem_append]
    refine ⟨head, fun c member => ?_⟩
    obtain ⟨item, inside, here⟩ := List.mem_flatMap.1 member
    exact (List.mem_append.1 here).elim (mark c) (tail item inside c)

theorem piecesLead {mark : Char} {lead text first : Text} {others : List Text} (free : mark ∉ lead)
    (cut : pieces mark text = first :: others) :
    pieces mark (lead ++ text) = (lead ++ first) :: others := by
  induction lead with
  | nil => exact cut
  | cons c rest ih =>
    simp only [List.mem_cons, not_or] at free
    simp only [List.cons_append, pieces, Ne.symm free.1, if_false, ih free.2, extendFirst]

theorem piecesFree {mark : Char} {text : Text} (free : mark ∉ text) : pieces mark text = [text] := by
  have lines := piecesLead free (show pieces mark [] = [[]] from rfl)
  rwa [List.append_nil] at lines

theorem piecesAppend (mark : Char) (left right : Text) :
    pieces mark (left ++ mark :: right) = pieces mark left ++ pieces mark right := by
  induction left with
  | nil => simp [pieces]
  | cons c rest ih =>
    obtain ⟨first, others, cut⟩ := List.exists_cons_of_ne_nil (piecesNonempty mark rest)
    simp only [List.cons_append, pieces, ih, cut, extendFirst]
    split <;> rfl

theorem piecesAtMark {mark : Char} {left : Text} (free : mark ∉ left) (right : Text) :
    pieces mark (left ++ mark :: right) = left :: pieces mark right := by
  rw [piecesAppend, piecesFree free, List.singleton_append]

theorem leadPiece {mark : Char} {lead text first : Text} {others : List Text} (free : mark ∉ lead)
    (cut : pieces mark text = first :: others) : lead <+: first ↔ lead <+: text := by
  constructor
  · intro leads
    have whole := joinedPieces mark text
    rw [cut, joinedCons] at whole
    exact leads.trans (whole ▸ List.prefix_append first _)
  · rintro ⟨behind, rfl⟩
    obtain ⟨next, more, tail⟩ := List.exists_cons_of_ne_nil (piecesNonempty mark behind)
    rw [piecesLead free tail] at cut
    cases cut
    exact List.prefix_append lead next

theorem splitOnceAt {mark : Char} {left : Text} (free : mark ∉ left) (right : Text) :
    splitOnce mark (left ++ mark :: right) = some (left, right) := by
  induction left with
  | nil => simp [splitOnce]
  | cons c rest ih =>
    simp only [List.mem_cons, not_or] at free
    simp [splitOnce, Ne.symm free.1, ih free.2]

theorem markNotInPiece {mark : Char} {text piece : Text} (member : piece ∈ pieces mark text) :
    mark ∉ piece := by
  induction text generalizing piece with
  | nil => simp [pieces] at member; simp [member]
  | cons c rest ih =>
    simp only [pieces] at member
    split at member
    · rcases List.mem_cons.1 member with rfl | later
      · simp
      · exact ih later
    · next other =>
      obtain ⟨first, others, cut⟩ := List.exists_cons_of_ne_nil (piecesNonempty mark rest)
      rw [cut] at member ih
      rcases List.mem_cons.1 member with rfl | later
      · simpa [Ne.symm other] using ih List.mem_cons_self
      · exact ih (List.mem_cons_of_mem _ later)

theorem piecesJoined {mark : Char} {items : List Text} (some : items ≠ [])
    (free : ∀ item ∈ items, mark ∉ item) : pieces mark (joined [mark] items) = items := by
  induction items with
  | nil => exact absurd rfl some
  | cons first others ih =>
    have head := free first List.mem_cons_self
    cases others with
    | nil => exact piecesFree head
    | cons second rest =>
      have tail := ih (by simp) fun item member => free item (List.mem_cons_of_mem _ member)
      rw [joined, List.append_assoc, List.singleton_append, piecesAtMark head, tail]
      simp

theorem joinedMapSublist {cut : Text → Text} (shorter : ∀ piece, (cut piece).Sublist piece)
    (between : Text) (items : List Text) :
    (joined between (items.map cut)).Sublist (joined between items) := by
  induction items with
  | nil => exact List.Sublist.refl _
  | cons first others ih =>
    cases others with
    | nil => exact shorter first
    | cons second rest => exact ((shorter first).append (List.Sublist.refl between)).append ih

theorem dropLastIfSublist (last : Char) (text : Text) : (dropLastIf last text).Sublist text := by
  unfold dropLastIf
  split
  · exact List.dropLast_sublist text
  · exact List.Sublist.refl text

theorem dropLastIfEq {last : Char} {text : Text} :
    dropLastIf last text = text ↔ text.getLast? ≠ some last := by
  unfold dropLastIf
  split
  · next ends =>
    have some : text ≠ [] := by rintro rfl; contradiction
    refine ⟨fun same => ?_, fun other => absurd ends other⟩
    have lengths := congrArg List.length same
    have size := List.length_pos_iff.2 some
    simp only [List.length_dropLast] at lengths
    omega
  · next other => exact ⟨fun _ => other, fun _ => rfl⟩

theorem dropLastIfAppend {last : Char} {left : Text} (other : left.getLast? ≠ some last)
    (right : Text) : dropLastIf last (left ++ right) = left ++ dropLastIf last right := by
  cases right with
  | nil => simp [dropLastIf, other]
  | cons c rest =>
    have ends : (left ++ c :: rest).getLast? = (c :: rest).getLast? := by
      rw [List.getLast?_append, List.getLast?_eq_some_getLast (List.cons_ne_nil c rest)]
      rfl
    unfold dropLastIf
    rw [ends]
    split
    · exact List.dropLast_append_of_ne_nil (by simp)
    · rfl

theorem dropLastIfConcat (last : Char) (text : Text) : dropLastIf last (text ++ [last]) = text := by
  simp [dropLastIf]

def readBack (text : Text) : Text := joined ['\n'] ((pieces '\n' text).map (dropLastIf '\r'))

def Settled (text : Text) : Prop := ¬ ['\r', '\n'] <:+: text ∧ text.getLast? ≠ some '\r'

instance (text : Text) : Decidable (Settled text) :=
  inferInstanceAs (Decidable (¬ ['\r', '\n'] <:+: text ∧ text.getLast? ≠ some '\r'))

theorem piecesReadBack (text : Text) :
    pieces '\n' (readBack text) = (pieces '\n' text).map (dropLastIf '\r') := by
  refine piecesJoined (by simp [piecesNonempty]) fun line member => ?_
  obtain ⟨piece, inside, rfl⟩ := List.mem_map.1 member
  exact fun here => markNotInPiece inside ((dropLastIfSublist '\r' piece).subset here)

theorem readBackSublist (text : Text) : (readBack text).Sublist text := by
  have whole := joinedMapSublist (dropLastIfSublist '\r') ['\n'] (pieces '\n' text)
  rwa [joinedPieces] at whole

theorem readBackFixed {text : Text} :
    readBack text = text ↔ ∀ line ∈ pieces '\n' text, line.getLast? ≠ some '\r' := by
  constructor
  · intro same line member
    have lines := piecesReadBack text
    rw [same] at lines
    have each : (pieces '\n' text).map (dropLastIf '\r') = (pieces '\n' text).map id := by
      rw [← lines, List.map_id]
    exact dropLastIfEq.1 (List.map_inj_left.1 each line member)
  · intro ends
    have lines : (pieces '\n' text).map (dropLastIf '\r') = (pieces '\n' text).map id :=
      List.map_inj_left.2 fun line member => dropLastIfEq.2 (ends line member)
    rw [readBack, lines, List.map_id, joinedPieces]

theorem settledCons {c : Char} {rest : Text} :
    Settled (c :: rest) ↔ ¬ (c = '\r' ∧ (rest = [] ∨ rest.head? = some '\n')) ∧ Settled rest := by
  unfold Settled
  cases rest with
  | nil =>
    have short : ¬ ['\r', '\n'] <:+: [c] := fun inside => by simpa using inside.length_le
    simp [short]
  | cons d more =>
    have first : ['\r', '\n'] <:+: c :: d :: more ↔
        c = '\r' ∧ d = '\n' ∨ ['\r', '\n'] <:+: d :: more := by
      simp [List.infix_cons_iff, List.cons_prefix_cons, eq_comm]
    simp only [first, List.getLast?_cons_cons, List.head?_cons, Option.some.injEq, reduceCtorEq,
      false_or, not_or, and_assoc]

theorem firstPieceEmpty {mark : Char} {text first : Text} {others : List Text}
    (cut : pieces mark text = first :: others) : first = [] ↔ text = [] ∨ text.head? = some mark := by
  cases text with
  | nil =>
    simp only [pieces, List.cons.injEq] at cut
    simp [← cut.1]
  | cons c rest =>
    simp only [pieces] at cut
    split at cut
    · next same =>
      simp only [List.cons.injEq] at cut
      simp [← cut.1, same]
    · next other =>
      obtain ⟨front, behind, tail⟩ := List.exists_cons_of_ne_nil (piecesNonempty mark rest)
      simp only [tail, extendFirst, List.cons.injEq] at cut
      simp [← cut.1, other]

theorem settledIff {text : Text} : Settled text ↔ readBack text = text := by
  rw [readBackFixed]
  induction text with
  | nil => decide
  | cons c rest ih =>
    obtain ⟨first, others, cut⟩ := List.exists_cons_of_ne_nil (piecesNonempty '\n' rest)
    have starts := firstPieceEmpty cut
    rw [settledCons, ih, ← starts]
    by_cases feed : c = '\n'
    · subst feed
      simp [pieces]
    · simp only [pieces, feed, if_false, cut, extendFirst, List.forall_mem_cons]
      -- the character ends the first line only where that line has no other
      cases first with
      | nil => simp
      | cons d more => simp

theorem settledNil : Settled [] := by decide

theorem settledAppend {left right : Text} (front : Settled left) (behind : Settled right) :
    Settled (left ++ right) := by
  induction left with
  | nil => exact behind
  | cons c rest ih =>
    obtain ⟨apart, tail⟩ := settledCons.1 front
    refine settledCons.2 ⟨fun ⟨returns, next⟩ => ?_, ih tail⟩
    cases rest with
    | nil => exact apart ⟨returns, .inl rfl⟩
    | cons d more => exact apart ⟨returns, .inr (by simpa using next)⟩

theorem settledJoined {between : Text} (plain : Settled between) {items : List Text}
    (each : ∀ item ∈ items, Settled item) : Settled (joined between items) := by
  induction items with
  | nil => exact settledNil
  | cons first others ih =>
    have head := each first List.mem_cons_self
    have tail := ih fun item member => each item (List.mem_cons_of_mem _ member)
    cases others with
    | nil => exact head
    | cons second rest => exact settledAppend (settledAppend head plain) tail

theorem infixJoined {between item : Text} {items : List Text} (member : item ∈ items) :
    item <:+: joined between items := by
  induction items with
  | nil => contradiction
  | cons first others ih =>
    cases others with
    | nil => rw [List.mem_singleton.1 member]; exact List.infix_rfl
    | cons second rest =>
      rcases List.mem_cons.1 member with rfl | later
      · exact ((List.prefix_append item between).trans (List.prefix_append _ _)).isInfix
      · exact (ih later).trans (List.suffix_append _ _).isInfix

end PkgInfo.Text
