import Mathlib.Data.List.TakeWhile
import Mathlib.Tactic.Tauto
import PkgInfo.Proofs.Header.Written
import PkgInfo.Proofs.Text.Decoding

/-! The lines of the block, as bytes: those before the first that has nothing left once its end is off.
What stands behind that one is never looked at. -/
namespace PkgInfo.Header
open Text Utf8

inductive Cut : Bytes → List Bytes → Prop
  | none : Cut [] []
  | last {line} (some : line ≠ []) (free : 0x0A ∉ line) : Cut line [line]
  | next {line rest lines} (free : 0x0A ∉ line) (tail : Cut rest lines) :
      Cut (line ++ 0x0A :: rest) ((line ++ [0x0A]) :: lines)

theorem cut (input : Bytes) : Cut input (rawLines input) := by
  induction input with
  | nil => exact .none
  | cons b rest ih =>
    simp only [rawLines]
    generalize rawLines rest = lines at ih ⊢
    split
    · next feed =>
      subst feed
      exact @Cut.next [] _ _ (by simp) ih
    · next other =>
      cases ih with
      | none => exact .last (by simp) (by simpa using Ne.symm other)
      | last _ free => exact .last (by simp) (by simpa [free] using Ne.symm other)
      | @next line _ _ free tail =>
        exact @Cut.next (b :: line) _ _ (by simpa [free] using Ne.symm other) tail

def withoutLast {α : Type} [DecidableEq α] (last : α) (items : List α) : List α :=
  if items.getLast? = some last then items.dropLast else items

theorem withoutLastIff {α : Type} [DecidableEq α] {last : α} {items kept : List α} :
    withoutLast last items = kept ↔
      items = kept ++ [last] ∨ items = kept ∧ kept.getLast? ≠ some last := by
  unfold withoutLast
  split
  · next ends =>
    obtain ⟨front, rfl⟩ := List.getLast?_eq_some_iff.1 ends
    constructor
    · rintro rfl
      exact .inl (by simp)
    · rintro (same | ⟨rfl, other⟩)
      · rw [same, List.dropLast_concat]
      · exact absurd ends other
  · next other =>
    constructor
    · rintro rfl
      exact .inr ⟨rfl, other⟩
    · rintro (rfl | ⟨rfl, _⟩)
      · simp at other
      · rfl

def bare (line : Bytes) : Bytes := withoutLast 0x0D (withoutLast 0x0A line)

def blockLines (input : Bytes) : List Bytes := (rawLines input).takeWhile (bare · ≠ [])

theorem lineLeft {input line : Bytes} (member : line ∈ blockLines input) : bare line ≠ [] := by
  simpa using List.mem_takeWhile_imp member

theorem endOnly {α : Type} [DecidableEq α] {feed back : α} (apart : back ≠ feed) {items : List α} :
    withoutLast back (withoutLast feed items) = [] ↔
      items = [] ∨ items = [feed] ∨ items = [back] ∨ items = [back, feed] := by
  simp only [withoutLastIff, List.nil_append, List.getLast?_nil, List.getLast?_singleton, ne_eq,
    reduceCtorEq, not_false_eq_true, and_true, Option.some.injEq, apart, List.singleton_append]
  tauto

theorem bareNothing {line : Bytes} :
    bare line = [] ↔ line = [] ∨ line = [0x0A] ∨ line = [0x0D] ∨ line = [0x0D, 0x0A] :=
  endOnly (by decide)

theorem textNothing {text : Text} : withoutEnd text = [] ↔ bare (encode text) = [] := by
  have ends : withoutEnd text = [] ↔
      text = [] ∨ text = ['\n'] ∨ text = ['\r'] ∨ text = ['\r', '\n'] := endOnly (by decide)
  have written : ∀ other bytes, bytes = encode other → (encode text = bytes ↔ text = other) := by
    rintro other _ rfl
    exact ⟨encodeInjective, fun same => same ▸ rfl⟩
  rw [ends, bareNothing, written [] [] rfl, written ['\n'] [0x0A] rfl, written ['\r'] [0x0D] rfl,
    written ['\r', '\n'] [0x0D, 0x0A] rfl]

theorem emptyLine {line : Bytes} (nothing : bare line = []) : Line.ofBytes line = .ok .empty := by
  rcases bareNothing.1 nothing with rfl | rfl | rfl | rfl <;> rfl

theorem sectionLines (number : Nat) (below : Bool) (lines : List Bytes) :
    sectionFrom number below (lines.takeWhile (bare · ≠ [])) = sectionFrom number below lines := by
  induction lines generalizing number below with
  | nil => rfl
  | cons line rest ih =>
    cases nothing : decide (bare line = []) with
    | true =>
      have last := of_decide_eq_true nothing
      simp [sectionFrom, last, emptyLine last]
    | false =>
      have more := of_decide_eq_false nothing
      simp only [List.takeWhile_cons, ne_eq, more, not_false_eq_true, decide_true, if_true,
        sectionFrom, ih]

theorem blockOnLines (input : Bytes) :
    block input = (sectionFrom 1 false (blockLines input)).map Section.headers := by
  rw [block, blockLines, sectionLines]

theorem rawLinesCons (b : UInt8) (rest : Bytes) : rawLines (b :: rest) =
    if b = 0x0A then [b] :: rawLines rest else extendLine b (rawLines rest) := rfl

theorem rawLinesAppend {front : Bytes} (ended : front.getLast? = some 0x0A) (rest : Bytes) :
    rawLines (front ++ rest) = rawLines front ++ rawLines rest := by
  induction front with
  | nil => simp at ended
  | cons b more ih =>
    cases more with
    | nil =>
      cases Option.some.inj ended
      rfl
    | cons c behind =>
      rw [List.getLast?_cons_cons] at ended
      have tail := ih ended
      have some : rawLines (c :: behind) ≠ [] := by
        rw [rawLinesCons]
        split
        · simp
        · cases rawLines behind <;> simp [extendLine]
      obtain ⟨line, others, lines⟩ := List.exists_cons_of_ne_nil some
      rw [List.cons_append, rawLinesCons, tail, rawLinesCons b, lines]
      split <;> rfl

theorem blockLinesAppend {front : Bytes} (ended : front.getLast? = some 0x0A)
    (empty : ∃ line ∈ rawLines front, bare line = []) (rest : Bytes) :
    blockLines (front ++ rest) = blockLines front := by
  obtain ⟨line, member, nothing⟩ := empty
  have stops : (blockLines front).length ≠ (rawLines front).length := fun same => by
    have whole : blockLines front = rawLines front :=
      (List.takeWhile_prefix (bare · ≠ [])).eq_of_length same
    exact lineLeft (whole ▸ member) nothing
  rw [blockLines, rawLinesAppend ended, List.takeWhile_append, ← blockLines, if_neg stops]

theorem rawLinesFree {bytes : Bytes} (free : (0x0A : UInt8) ∉ bytes) (rest : Bytes) :
    rawLines (bytes ++ rest) = bytes.foldr extendLine (rawLines rest) := by
  induction bytes with
  | nil => rfl
  | cons b more ih =>
    simp only [List.mem_cons, not_or] at free
    simp [rawLines, Ne.symm free.1, ih free.2]

theorem extendLines {bytes : Bytes} (some : bytes ≠ []) (lines : List Bytes) :
    bytes.foldr extendLine lines = (bytes ++ lines.headD []) :: lines.tail := by
  induction bytes with
  | nil => exact absurd rfl some
  | cons b more ih =>
    cases more with
    | nil => cases lines <;> rfl
    | cons c behind => rw [List.foldr_cons, ih (by simp)]; rfl

theorem linesEncoded (text : Text) : ∃ lines : List Text, rawLines (encode text) = lines.map encode := by
  induction text with
  | nil => exact ⟨[], rfl⟩
  | cons c rest ih =>
    obtain ⟨lines, tail⟩ := ih
    cases feed : decide (c = '\n') with
    | true =>
      cases of_decide_eq_true feed
      exact ⟨['\n'] :: lines, congrArg ([0x0A] :: ·) tail⟩
    | false =>
      have free := feedInChar (of_decide_eq_false feed)
      refine ⟨(c :: lines.headD []) :: lines.tail, ?_⟩
      rw [encode, List.flatMap_cons, ← encode, rawLinesFree free, tail, extendLines (by simp)]
      cases lines <;> simp [encode]

end PkgInfo.Header
