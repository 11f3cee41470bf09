import PkgInfo.Proofs.Header.Lines

/-! A header block with another line end. A carriage return before every line feed belongs to the ends of
the lines and changes neither the headers nor what is found wrong, nor where. -/
namespace PkgInfo.Header
open Text Utf8

def returned (input : Bytes) : Bytes := input.flatMap fun b => if b = 0x0A then [0x0D, 0x0A] else [b]

theorem returnedFree {bytes : Bytes} (free : 0x0A ∉ bytes) : returned bytes = bytes := by
  induction bytes with
  | nil => rfl
  | cons b rest ih =>
    simp only [List.mem_cons, not_or] at free
    have tail := ih free.2
    simp only [returned, List.flatMap_cons, Ne.symm free.1, if_false] at tail ⊢
    rw [tail, List.singleton_append]

theorem rawLinesReturned (input : Bytes) : rawLines (returned input) = (rawLines input).map returned := by
  induction input with
  | nil => rfl
  | cons b rest ih =>
    cases feed : decide (b = 0x0A) with
    | true =>
      cases of_decide_eq_true feed
      exact congrArg ([0x0D, 0x0A] :: ·) ih
    | false =>
      have other := of_decide_eq_false feed
      have front : returned (b :: rest) = b :: returned rest := by simp [returned, other]
      rw [front, rawLinesCons, rawLinesCons, if_neg other, if_neg other, ih]
      cases rawLines rest <;> simp [extendLine, returned, other]

theorem endRead {line : Bytes} (free : 0x0D ∉ line) :
    Line.ofBytes (line ++ [0x0D, 0x0A]) = Line.ofBytes (line ++ [0x0A]) := by
  cases read : decode line with
  | error cause =>
    obtain ⟨settled, same⟩ := faultSettled noneOpen read
    simp only [Line.ofBytes, decode, same 0x0D [0x0A] (by decide), same 0x0A [] (by decide)]
  | ok text =>
    obtain rfl := decodedIff.1 read
    have ends : text.getLast? ≠ some '\r' := fun last =>
      free (List.mem_flatMap.2 ⟨'\r', List.mem_of_mem_getLast? last, by decide⟩)
    have both : encode text ++ [0x0D, 0x0A] = encode ((text ++ ['\r']) ++ ['\n']) := by
      rw [encodeAppend, encodeAppend, List.append_assoc]
      rfl
    rw [both, ← encodeFeed, lineOfWritten, lineOfWritten, dropLastIfConcat, dropLastIfEq.2 ends]

theorem lineReturned {input : Bytes} {lines : List Bytes} (cut : Cut input lines) (free : 0x0D ∉ input) :
    ∀ line ∈ lines, Line.ofBytes (returned line) = Line.ofBytes line := by
  induction cut with
  | none => nofun
  | last _ feedFree => simpa using congrArg Line.ofBytes (returnedFree feedFree)
  | @next line rest lines feedFree tail ih =>
    simp only [List.mem_append, List.mem_cons, not_or] at free
    refine List.forall_mem_cons.2 ⟨?_, ih free.2.2⟩
    have ended : returned (line ++ [0x0A]) = line ++ [0x0D, 0x0A] := by
      rw [returned, List.flatMap_append, ← returned, returnedFree feedFree]
      rfl
    rw [ended, endRead free.1]

theorem sectionReread {respell : Bytes → Bytes} {lines : List Bytes}
    (same : ∀ line ∈ lines, Line.ofBytes (respell line) = Line.ofBytes line) (number : Nat) (below : Bool) :
    sectionFrom number below (lines.map respell) = sectionFrom number below lines := by
  induction lines generalizing number below with
  | nil => rfl
  | cons line rest ih =>
    obtain ⟨head, tail⟩ := List.forall_mem_cons.1 same
    simp only [List.map_cons, sectionFrom, head, ih tail]

/-- Bytes without a carriage return give the same block with one before each line feed: the same headers,
or the same fault on the same line. -/
theorem lineEndsAlike {input : Bytes} (free : 0x0D ∉ input) : block (returned input) = block input := by
  rw [block, rawLinesReturned, sectionReread (lineReturned (cut input) free)]
  rfl

-- A character is cut short by the end of its line.
theorem lineEndsAlikeCutShort :
    let input := encode "Name: a\n b\nSummary: ".toList ++ [0xE2, 0x82, 0x0A, 0x0A]
    0x0D ∉ input ∧ returned input = encode "Name: a\r\n b\r\nSummary: ".toList ++
        [0xE2, 0x82, 0x0D, 0x0A, 0x0D, 0x0A] ∧
      block input = .error ⟨3, .badUtf8 (.invalid 2 9)⟩ ∧
      block (returned input) = .error ⟨3, .badUtf8 (.invalid 2 9)⟩ := by
  intro input
  have free : 0x0D ∉ input := by decide +kernel
  have refused : block input = .error ⟨3, .badUtf8 (.invalid 2 9)⟩ := by decide +kernel
  exact ⟨free, by decide +kernel, refused, (lineEndsAlike free).trans refused⟩

end PkgInfo.Header
