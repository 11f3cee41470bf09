import PkgInfo.Document
import PkgInfo.Proofs.Text.Encoding
import PkgInfo.Proofs.Value.Folding

/-! Headers that were written are read again one for one. Folding keeps every line of a value but the
first behind a bar, so none of them is empty, none is a header of its own, and what comes back of each
line is the line without the carriage return at its end. -/
namespace PkgInfo.Header
open Text Utf8 Value

structure Plain (name : Text) : Prop where
  starts : ∃ c rest, name = c :: rest ∧ c ≠ ' ' ∧ c ≠ '\t'
  colonFree : ':' ∉ name
  feedFree : '\n' ∉ name
  ends : trimEnd name = name

theorem labelPlain (f : Field) : Plain f.label := by
  cases f <;> exact ⟨⟨_, _, rfl, by decide, by decide⟩, by decide, by decide, by decide⟩

def linesOf (h : Header) : List Text :=
  match barred (pieces '\n' h.value) with
  | [] => []
  | first :: others => (h.name ++ ": ".toList ++ first) :: others

theorem feedsShift (lines : List Text) :
    lines.flatMap ('\n' :: ·) ++ ['\n'] = '\n' :: lines.flatMap (· ++ ['\n']) := by
  induction lines with
  | nil => rfl
  | cons next rest ih => simp [ih]

theorem lineOnLines (h : Header) : line h = (linesOf h).flatMap (· ++ ['\n']) := by
  obtain ⟨first, others, cut⟩ := List.exists_cons_of_ne_nil (piecesNonempty '\n' h.value)
  rw [line, foldJoined, linesOf, cut, barred, joinedCons]
  have behind := feedsShift (others.map (bar ++ ·))
  simp only [List.singleton_append, List.flatMap_cons, List.append_assoc] at behind ⊢
  rw [behind]

theorem rawLinesCut {bytes : Bytes} (free : (0x0A : UInt8) ∉ bytes) (rest : Bytes) :
    rawLines (bytes ++ 0x0A :: rest) = (bytes ++ [0x0A]) :: rawLines rest := by
  induction bytes with
  | nil => simp [rawLines]
  | cons b more ih =>
    simp only [List.mem_cons, not_or] at free
    simp [rawLines, Ne.symm free.1, ih free.2, extendLine]

theorem rawLinesOf {lines : List Text} (free : ∀ line ∈ lines, '\n' ∉ line) (rest : Bytes) :
    rawLines (encode (lines.flatMap (· ++ ['\n'])) ++ rest) =
      lines.map (fun line => encode (line ++ ['\n'])) ++ rawLines rest := by
  induction lines with
  | nil => rfl
  | cons first others ih =>
    have head := feedInEncode (free first List.mem_cons_self)
    have tail := ih fun line member => free line (List.mem_cons_of_mem _ member)
    rw [List.flatMap_cons, encodeAppend, encodeFeed]
    simp only [List.append_assoc, List.cons_append, List.nil_append]
    rw [rawLinesCut head, tail, List.map_cons, encodeFeed]
    rfl

theorem lineOfWritten (line : Text) :
    Line.ofBytes (encode (line ++ ['\n'])) = Line.ofText (dropLastIf '\r' line) := by
  simp only [Line.ofBytes, decodeEncode, withoutEnd, dropLastIfConcat]

theorem headerLine {name : Text} (plain : Plain name) (value : Text) :
    Line.ofText (dropLastIf '\r' (name ++ ": ".toList ++ value)) =
      .ok (.header ⟨name, dropLastIf '\r' value⟩) := by
  obtain ⟨c, rest, same, notSpace, notTab⟩ := plain.starts
  have other : (name ++ ": ".toList).getLast? ≠ some '\r' := by simp
  have cut : splitOnce ':' (name ++ ": ".toList ++ dropLastIf '\r' value) =
      some (name, ' ' :: dropLastIf '\r' value) := by
    simpa using splitOnceAt plain.colonFree (' ' :: dropLastIf '\r' value)
  have some : name ≠ [] := by simp [same]
  have begins : name ++ ": ".toList ++ dropLastIf '\r' value =
      c :: (rest ++ ": ".toList ++ dropLastIf '\r' value) := by simp [same]
  rw [dropLastIfAppend other]
  rw [begins] at cut ⊢
  simp only [Line.ofText, notSpace, notTab, or_self, if_false, cut, plain.ends, some, stripLead?]
  simp

theorem barLine (value : Text) :
    Line.ofText (dropLastIf '\r' (bar ++ value)) =
      .ok (.continuation (bar ++ dropLastIf '\r' value)) := by
  have other : bar.getLast? ≠ some '\r' := by decide
  have starts : bar = ' ' :: "      |".toList := by decide
  rw [dropLastIfAppend other, starts]
  rfl

theorem sectionBarred {rest : List Bytes} {s : Section}
    (next : ∀ number, sectionFrom number true rest = .ok s) (others : List Text) (number : Nat) :
    sectionFrom number true
        (others.map (fun line => encode (bar ++ line ++ ['\n'])) ++ rest) =
      .ok {s with
        more := others.flatMap (fun line => '\n' :: bar ++ dropLastIf '\r' line) ++ s.more} := by
  induction others generalizing number with
  | nil => simpa using next number
  | cons first others ih =>
    simp only [List.map_cons, List.cons_append, sectionFrom, lineOfWritten, barLine, if_true, ih]
    simp [Except.map, Section.goOn]

theorem linesFree {h : Header} (plain : Plain h.name) : ∀ line ∈ linesOf h, '\n' ∉ line := by
  obtain ⟨first, others, cut⟩ := List.exists_cons_of_ne_nil (piecesNonempty '\n' h.value)
  have free : ∀ line ∈ first :: others, '\n' ∉ line := fun line member =>
    markNotInPiece (cut ▸ member)
  simp only [linesOf, cut, barred]
  intro line member
  rcases List.mem_cons.1 member with rfl | later
  · simpa [plain.feedFree] using free first List.mem_cons_self
  · obtain ⟨piece, inside, rfl⟩ := List.mem_map.1 later
    simpa [barFree] using free piece (List.mem_cons_of_mem _ inside)

theorem sectionHeader {h : Header} (plain : Plain h.name) {rest : List Bytes}
    {headers : List Header} (next : ∀ number, sectionFrom number true rest = .ok ⟨[], headers⟩)
    (number : Nat) (below : Bool) :
    sectionFrom number below ((linesOf h).map (fun line => encode (line ++ ['\n'])) ++ rest) =
      .ok ⟨[], ⟨h.name, readBack (fold h.value)⟩ :: headers⟩ := by
  obtain ⟨first, others, cut⟩ := List.exists_cons_of_ne_nil (piecesNonempty '\n' h.value)
  have value : readBack (fold h.value) = dropLastIf '\r' first ++
      others.flatMap (fun line => '\n' :: bar ++ dropLastIf '\r' line) := by
    rw [readBack, piecesFold, cut, barredMap, List.map_cons, barred, joinedCons]
    simp [List.flatMap_map]
  have behind := sectionBarred next others (number + 1)
  rw [value]
  simp only [linesOf, cut, barred, List.map_cons, List.map_map, Function.comp_def, List.cons_append,
    sectionFrom, lineOfWritten, headerLine plain, behind]
  simp [Except.map, Section.headedBy]

theorem sectionWritten {headers : List Header} (plain : ∀ h ∈ headers, Plain h.name)
    (number : Nat) (below : Bool) :
    sectionFrom number below (rawLines (encode (headers.flatMap line))) =
      .ok ⟨[], headers.map fun h => ⟨h.name, readBack (fold h.value)⟩⟩ := by
  induction headers generalizing number below with
  | nil => rfl
  | cons h rest ih =>
    have head := plain h List.mem_cons_self
    have tail := ih fun other member => plain other (List.mem_cons_of_mem _ member)
    rw [List.flatMap_cons, lineOnLines, encodeAppend, rawLinesOf (linesFree head)]
    exact sectionHeader head (fun number => tail number true) number below

theorem blockWritten {headers : List Header} (plain : ∀ h ∈ headers, Plain h.name) :
    block (encode (headers.flatMap line)) =
      .ok (headers.map fun h => ⟨h.name, readBack (fold h.value)⟩) := by
  simp [block, sectionWritten plain, Except.map]

end PkgInfo.Header
