import PkgInfo.Proofs.Header.Grammar
import PkgInfo.Proofs.Text.Letters

/-! Documents as groups, each a header line with the lines that go on with it, and the bytes that close
the block. Groups put together give the header of each, and every accepted document whose lines are all
ended is made of groups. -/
namespace PkgInfo.Header
open Text Utf8

def afterSpace : Text → Text
  | ' ' :: value => value
  | value => value

theorem behindAfterSpace (behind : Text) : Behind behind (afterSpace behind) := by
  unfold afterSpace
  split
  · exact .spaced _
  · next plain =>
    refine .plain fun starts => ?_
    obtain ⟨rest, rfl⟩ := List.head?_eq_some_iff.1 starts
    exact plain rest rfl

theorem strippedEither (last : Char) (line : Text) :
    line = dropLastIf last line ++ [last] ∨ line = dropLastIf last line :=
  (withoutLastIff.1 rfl).imp_right And.left

theorem indentedStripped {line : Text} : Indented (dropLastIf '\r' line) ↔ Indented line := by
  rcases strippedEither '\r' line with ended | same
  · generalize dropLastIf '\r' line = stripped at ended
    rw [ended]
    cases stripped <;> simp [Indented]
  · rw [← same]

theorem indentedFront {name : Text} (ends : ∃ c, name.getLast? = some c ∧ isBlank c = false)
    (rest : Text) : Indented (name ++ rest) ↔ Indented name := by
  obtain ⟨c, last, _⟩ := ends
  have named : name ≠ [] := by
    rintro rfl
    simp at last
  rw [Indented, Indented, List.head?_append_of_ne_nil _ named]

structure Group where
  name : Text
  gap : Text
  behind : Text
  more : List Text
  flush : ¬ Indented name
  colonFree : ':' ∉ name
  ends : ∃ c, name.getLast? = some c ∧ isBlank c = false
  blank : ∀ c ∈ gap, isBlank c = true
  indented : ∀ line ∈ more, Indented line
  feedFree : '\n' ∉ name ∧ '\n' ∉ gap ∧ '\n' ∉ behind ∧ ∀ line ∈ more, '\n' ∉ line

namespace Group

def lines (g : Group) : List Text := (g.name ++ g.gap ++ ':' :: g.behind) :: g.more

def header (g : Group) : Header :=
  ⟨g.name, afterSpace (dropLastIf '\r' g.behind) ++
    (g.more.map (dropLastIf '\r')).flatMap ('\n' :: ·)⟩

def recased (g : Group) {name : Text} (same : SameLetters g.name name) : Group where
  name := name
  gap := g.gap
  behind := g.behind
  more := g.more
  flush := by
    have kept := g.flush
    rwa [Indented, headRecased same rfl, headRecased same rfl] at kept
  colonFree := mt (markRecased same rfl).2 g.colonFree
  ends := (endRecased same).1 g.ends
  blank := g.blank
  indented := g.indented
  feedFree := ⟨mt (markRecased same rfl).2 g.feedFree.1, g.feedFree.2⟩

def ofField (f : Field) (value : Text) (free : '\n' ∉ value) : Group where
  name := f.label
  gap := []
  behind := ' ' :: value
  more := []
  flush := by cases f <;> decide
  colonFree := (labelPlain f).colonFree
  ends := by cases f <;> exact ⟨_, rfl, by decide⟩
  blank := nofun
  indented := nofun
  feedFree := ⟨(labelPlain f).feedFree, nofun, by simpa using free, nofun⟩

theorem linesFree (g : Group) : ∀ line ∈ g.lines, '\n' ∉ line := by
  obtain ⟨name, gap, behind, more⟩ := g.feedFree
  intro line member
  rcases List.mem_cons.1 member with rfl | below
  · simp [name, gap, behind]
  · exact more line below

theorem lineStripped (g : Group) :
    dropLastIf '\r' (g.name ++ g.gap ++ ':' :: g.behind) =
      g.name ++ g.gap ++ ':' :: dropLastIf '\r' g.behind := by
  have colon : (g.name ++ g.gap ++ [':']).getLast? ≠ some '\r' := by simp
  simpa using dropLastIfAppend colon g.behind

theorem headed (g : Group) : Headed (dropLastIf '\r' (g.name ++ g.gap ++ ':' :: g.behind))
    ⟨g.name, afterSpace (dropLastIf '\r' g.behind)⟩ := by
  have flush : ¬ Indented (g.name ++ g.gap ++ ':' :: dropLastIf '\r' g.behind) := by
    rw [List.append_assoc, indentedFront g.ends]
    exact g.flush
  rw [lineStripped]
  exact .mk flush g.colonFree g.ends g.blank (behindAfterSpace _)

theorem entries (g : Group) {rest : List Text} {headers : List Header}
    (tail : Entries rest headers) :
    Entries (g.lines.map (dropLastIf '\r') ++ rest) (g.header :: headers) := by
  have below : ∀ line ∈ g.more.map (dropLastIf '\r'), Indented line := by
    intro line member
    obtain ⟨raw, inside, rfl⟩ := List.mem_map.1 member
    exact indentedStripped.2 (g.indented raw inside)
  exact .entry g.headed below tail

theorem linesFilled (g : Group) : ∀ line ∈ g.lines, dropLastIf '\r' line ≠ [] := by
  intro line member
  rcases List.mem_cons.1 member with rfl | below
  · rw [lineStripped]
    simp
  · have starts := indentedStripped.2 (g.indented line below)
    intro nothing
    simp [nothing, Indented] at starts

end Group

inductive Closing : Bytes → Prop
  | none : Closing []
  | feed (rest : Bytes) : Closing (0x0A :: rest)
  | returned (rest : Bytes) : Closing (0x0D :: 0x0A :: rest)

def document (groups : List Group) (tail : Bytes) : Bytes :=
  encode ((groups.flatMap Group.lines).flatMap (· ++ ['\n'])) ++ tail

theorem closingLines {tail : Bytes} (closing : Closing tail) : blockLines tail = [] := by
  cases closing <;> rfl

theorem documentLines (groups : List Group) {tail : Bytes} (closing : Closing tail) :
    blockLines (document groups tail) =
      ((groups.flatMap Group.lines).map (· ++ ['\n'])).map encode := by
  have free : ∀ line ∈ groups.flatMap Group.lines, '\n' ∉ line := by
    intro line member
    obtain ⟨g, _, inside⟩ := List.mem_flatMap.1 member
    exact g.linesFree line inside
  have filled : ∀ line ∈ (groups.flatMap Group.lines).map fun line => encode (line ++ ['\n']),
      decide (bare line ≠ []) = true := by
    intro line member
    obtain ⟨raw, within, rfl⟩ := List.mem_map.1 member
    obtain ⟨g, _, inside⟩ := List.mem_flatMap.1 within
    have stripped := g.linesFilled raw inside
    rw [decide_eq_true_eq, ne_eq, ← textNothing, withoutEnd, dropLastIfConcat]
    exact stripped
  rw [blockLines, document, rawLinesOf free, List.takeWhile_append_of_pos filled, ← blockLines,
    closingLines closing, List.append_nil, List.map_map]
  rfl

theorem documentEntries (groups : List Group) :
    Entries ((groups.flatMap Group.lines).map (dropLastIf '\r')) (groups.map Group.header) := by
  induction groups with
  | nil => exact .none
  | cons g rest ih =>
    rw [List.flatMap_cons, List.map_append]
    exact g.entries ih

theorem feedsStripped (raws : List Text) :
    (raws.map (· ++ ['\n'])).map withoutEnd = raws.map (dropLastIf '\r') := by
  rw [List.map_map]
  refine List.map_congr_left fun line _ => ?_
  exact congrArg (dropLastIf '\r') (dropLastIfConcat '\n' line)

theorem blockDocument (groups : List Group) {tail : Bytes} (closing : Closing tail) :
    block (document groups tail) = .ok (groups.map Group.header) := by
  refine blockEntries (documentLines groups closing) ?_
  rw [feedsStripped]
  exact documentEntries groups

theorem groupHeaded {raw : Text} {h : Header} (headed : Headed (dropLastIf '\r' raw) h)
    (feedFree : '\n' ∉ raw) {more : List Text} (indented : ∀ line ∈ more, Indented line)
    (free : ∀ line ∈ more, '\n' ∉ line) : ∃ g : Group, g.lines = raw :: more := by
  generalize stripped : dropLastIf '\r' raw = line at headed
  obtain @⟨name, blanks, behind, value, flush, colonFree, ends, blank, _⟩ := headed
  -- The carriage return that the line has lost, if any, stood behind the colon.
  have whole : ∃ behind, raw = name ++ blanks ++ ':' :: behind := by
    rcases strippedEither '\r' raw with ended | same
    · exact ⟨behind ++ ['\r'], by rw [ended, stripped]; simp⟩
    · exact ⟨behind, by rw [same, stripped]⟩
  obtain ⟨behind, rfl⟩ := whole
  simp only [List.mem_append, List.mem_cons, not_or] at feedFree
  obtain ⟨⟨nameFree, gapFree⟩, _, behindFree⟩ := feedFree
  have flushName : ¬ Indented name := by rwa [List.append_assoc, indentedFront ends] at flush
  exact ⟨⟨name, blanks, behind, more, flushName, colonFree, ends, blank, indented,
    nameFree, gapFree, behindFree, free⟩, rfl⟩

theorem groupsOfLines {raws : List Text} {headers : List Header} (free : ∀ line ∈ raws, '\n' ∉ line)
    (entries : Entries (raws.map (dropLastIf '\r')) headers) :
    ∃ groups : List Group, groups.flatMap Group.lines = raws := by
  generalize stripped : raws.map (dropLastIf '\r') = lines at entries
  induction entries generalizing raws with
  | none => exact ⟨[], (List.map_eq_nil_iff.1 stripped).symm⟩
  | entry headed indented _ ih =>
    obtain ⟨front, back, rfl, here, behind⟩ := List.map_eq_append_iff.1 stripped
    obtain ⟨raw, more, rfl, rfl, below⟩ := List.map_eq_cons_iff.1 here
    have freeFront : ∀ line ∈ raw :: more, '\n' ∉ line := fun line member =>
      free line (List.mem_append_left _ member)
    have indentedRaw : ∀ line ∈ more, Indented line := by
      intro line member
      rw [← below] at indented
      exact indentedStripped.1 (indented _ (List.mem_map_of_mem member))
    obtain ⟨groups, rest⟩ := ih (fun line member => free line (List.mem_append_right _ member)) behind
    obtain ⟨g, first⟩ := groupHeaded headed (freeFront raw List.mem_cons_self) indentedRaw
      fun line member => freeFront line (List.mem_cons_of_mem _ member)
    exact ⟨g :: groups, by rw [List.flatMap_cons, first, rest]⟩

theorem cutWhole {input : Bytes} {lines : List Bytes} (cut : Cut input lines) :
    lines.flatten = input := by
  induction cut with
  | none => rfl
  | last _ _ => exact List.append_nil _
  | next _ _ ih => simp [ih]

theorem endedLine {input : Bytes} {lines : List Bytes} (cut : Cut input lines) {line : Bytes}
    (member : line ∈ lines) (ended : line.getLast? = some 0x0A) :
    ∃ front, line = front ++ [0x0A] ∧ 0x0A ∉ front := by
  induction cut with
  | none => contradiction
  | last _ free =>
    obtain rfl := List.mem_singleton.1 member
    exact absurd (List.mem_of_getLast? ended) free
  | next free _ ih =>
    rcases List.mem_cons.1 member with rfl | later
    · exact ⟨_, rfl, free⟩
    · exact ih later

theorem endedText {text : Text} {front : Bytes} (ended : encode text = front ++ [0x0A])
    (free : 0x0A ∉ front) : ∃ line, text = line ++ ['\n'] ∧ '\n' ∉ line := by
  cases ends : text.getLast? with
  | none =>
    rw [List.getLast?_eq_none_iff.1 ends] at ended
    simp [encode] at ended
  | some c =>
    obtain ⟨line, rfl⟩ := List.getLast?_eq_some_iff.1 ends
    cases feed : decide (c = '\n') with
    | true =>
      cases of_decide_eq_true feed
      rw [encodeFeed] at ended
      refine ⟨line, rfl, fun inside => free ?_⟩
      rw [← List.append_cancel_right ended]
      exact List.mem_flatMap.2 ⟨'\n', inside, by decide⟩
    | false =>
      -- No byte of another character is a line feed, so the last one is none.
      have other := feedInChar (of_decide_eq_false feed)
      have filled : String.utf8EncodeChar c ≠ [] := by simp
      have last : (encode line ++ String.utf8EncodeChar c).getLast? = some 0x0A := by
        rw [show String.utf8EncodeChar c = encode [c] by simp [encode], ← encodeAppend, ended,
          List.getLast?_concat]
      rw [List.getLast?_append, List.getLast?_eq_some_getLast filled] at last
      have feeds : (String.utf8EncodeChar c).getLast filled = 0x0A := Option.some.inj last
      exact absurd (feeds ▸ List.getLast_mem filled) other

theorem closingOfLines {lines : List Bytes} (ended : ∀ line ∈ lines, line.getLast? = some 0x0A) :
    Closing (lines.dropWhile (bare · ≠ [])).flatten := by
  cases left : lines.dropWhile (bare · ≠ []) with
  | nil => exact .none
  | cons line rest =>
    have nothing : bare line = [] := by
      have stops := List.head?_dropWhile_not (bare · ≠ []) lines
      rw [left] at stops
      simpa using stops
    have member : line ∈ lines := (List.dropWhile_sublist _).subset (by rw [left]; simp)
    have feed := ended line member
    rcases bareNothing.1 nothing with rfl | rfl | rfl | rfl
    · simp at feed
    · exact .feed _
    · simp at feed
    · exact .returned _

theorem textsEnded {input : Bytes} {texts : List Text}
    (written : blockLines input = texts.map encode)
    (ended : ∀ line ∈ rawLines input, line.getLast? = some 0x0A) :
    ∃ raws : List Text, texts = raws.map (· ++ ['\n']) ∧ ∀ line ∈ raws, '\n' ∉ line := by
  have each : ∀ text ∈ texts, dropLastIf '\n' text ++ ['\n'] = text ∧
      '\n' ∉ dropLastIf '\n' text := by
    intro text member
    have inBlock : encode text ∈ blockLines input := written ▸ List.mem_map_of_mem member
    have inside : encode text ∈ rawLines input := (List.takeWhile_sublist _).subset inBlock
    obtain ⟨front, same, free⟩ := endedLine (cut input) inside (ended _ inside)
    obtain ⟨line, rfl, feedFree⟩ := endedText same free
    rw [dropLastIfConcat]
    exact ⟨rfl, feedFree⟩
  refine ⟨texts.map (dropLastIf '\n'), ?_, ?_⟩
  · rw [List.map_map]
    exact (List.map_id _).symm.trans (List.map_congr_left fun text member => (each text member).1.symm)
  · intro line member
    obtain ⟨text, inside, rfl⟩ := List.mem_map.1 member
    exact (each text inside).2

theorem encodeFlatten (texts : List Text) : encode texts.flatten = (texts.map encode).flatten := by
  induction texts with
  | nil => rfl
  | cons text rest ih => rw [List.flatten_cons, encodeAppend, ih, List.map_cons, List.flatten_cons]

theorem groupsOf {input : Bytes} {headers : List Header} (accepted : block input = .ok headers)
    (ended : ∀ line ∈ rawLines input, line.getLast? = some 0x0A) :
    ∃ groups tail, Closing tail ∧ input = document groups tail := by
  obtain ⟨texts, written, formed⟩ := blockAccepted accepted
  obtain ⟨_, entries⟩ := entriesInForm formed
  obtain ⟨raws, rfl, free⟩ := textsEnded written ended
  rw [feedsStripped] at entries
  obtain ⟨groups, same⟩ := groupsOfLines free entries
  have front : encode ((groups.flatMap Group.lines).flatMap (· ++ ['\n'])) =
      (blockLines input).flatten := by
    rw [same, written, List.flatMap_def, encodeFlatten]
  refine ⟨groups, _, closingOfLines ended, ?_⟩
  rw [document, front, blockLines, ← List.flatten_append, List.takeWhile_append_dropWhile,
    cutWhole (cut input)]

end PkgInfo.Header
