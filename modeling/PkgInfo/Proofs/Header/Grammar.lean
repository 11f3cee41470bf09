import PkgInfo.Proofs.Header.Lines
import PkgInfo.Proofs.Value.Elements

/-! The grammar of a header block, said of its lines without their ends: which lines may stand below
which, the headers they make, and what is wrong with the first line that does not fit. -/
namespace PkgInfo.Header
open Text Utf8 Value

def Indented (line : Text) : Prop := line.head? = some ' ' ∨ line.head? = some '\t'

instance (line : Text) : Decidable (Indented line) :=
  inferInstanceAs (Decidable (line.head? = some ' ' ∨ line.head? = some '\t'))

inductive Behind : Text → Text → Prop
  | spaced (value : Text) : Behind (' ' :: value) value
  | plain {value : Text} (starts : value.head? ≠ some ' ') : Behind value value

inductive Headed : Text → Header → Prop
  | mk {name blanks behind value : Text} (flush : ¬ Indented (name ++ blanks ++ ':' :: behind))
      (free : ':' ∉ name) (ends : ∃ c, name.getLast? = some c ∧ isBlank c = false)
      (blank : ∀ c ∈ blanks, isBlank c = true) (valued : Behind behind value) :
      Headed (name ++ blanks ++ ':' :: behind) ⟨name, value⟩

inductive Entries : List Text → List Header → Prop
  | none : Entries [] []
  | entry {line h more rest headers} (headed : Headed line h)
      (indented : ∀ line ∈ more, Indented line) (tail : Entries rest headers) :
      Entries (line :: more ++ rest) ({h with value := h.value ++ more.flatMap ('\n' :: ·)} :: headers)

def Titled (line : Text) : Prop :=
  ∃ front behind, line = front ++ ':' :: behind ∧ ':' ∉ front ∧ ∃ c ∈ front, isBlank c = false

def Led (above : List Text) : Prop := ∃ line ∈ above, ¬ Indented line

structure Fits (above : List Text) (line : Text) : Prop where
  indented : Indented line → Led above
  flush : ¬ Indented line → Titled line

def FormedBelow (above lines : List Text) : Prop :=
  ∀ front line behind, lines = front ++ line :: behind → Fits (above ++ front) line

def InForm (lines : List Text) : Prop := FormedBelow [] lines

inductive Offence (above : List Text) : Bytes → Fault → Prop
  | badUtf8 {line cause} (noText : ∀ text, line ≠ encode text) (found : decode line = .error cause) :
      Offence above line (.badUtf8 cause)
  | orphan {text} (indented : Indented (withoutEnd text)) (first : ¬ Led above) :
      Offence above (encode text) .orphan
  | noColon {text} (flush : ¬ Indented (withoutEnd text)) (free : ':' ∉ withoutEnd text) :
      Offence above (encode text) (.noColon (withoutEnd text))
  | emptyName {text front behind} (flush : ¬ Indented (withoutEnd text))
      (titled : withoutEnd text = front ++ ':' :: behind) (blank : ∀ c ∈ front, isBlank c = true) :
      Offence above (encode text) .emptyName

theorem indentedRead {line : Text} (indented : Indented line) :
    Line.ofText line = .ok (.continuation line) := by
  cases line with
  | nil => simp [Indented] at indented
  | cons c rest =>
    have starts : c = ' ' ∨ c = '\t' := by simpa [Indented] using indented
    simp [Line.ofText, starts]

theorem flushRead {line : Text} (filled : line ≠ []) (flush : ¬ Indented line) :
    Line.ofText line = match splitOnce ':' line with
      | none => .error (.noColon line)
      | some (front, behind) =>
        if trimEnd front = [] then .error .emptyName
        else .ok (.header ⟨trimEnd front, (stripLead? [' '] behind).getD behind⟩) := by
  cases line with
  | nil => exact absurd rfl filled
  | cons c rest =>
    have starts : ¬ (c = ' ' ∨ c = '\t') := by simpa [Indented] using flush
    refine (if_neg starts).trans ?_
    cases splitOnce ':' (c :: rest) <;> rfl

theorem colonlessRead {line : Text} (filled : line ≠ []) (flush : ¬ Indented line)
    (free : ':' ∉ line) : Line.ofText line = .error (.noColon line) := by
  rw [flushRead filled flush, splitOnceNone.2 free]

theorem namelessRead {line front behind : Text} (flush : ¬ Indented line)
    (titled : line = front ++ ':' :: behind) (blank : ∀ c ∈ front, isBlank c = true) :
    Line.ofText line = .error .emptyName := by
  have free : ':' ∉ front := fun member => absurd (blank _ member) (by decide)
  rw [flushRead (by simp [titled]) flush, titled, splitOnceAt free]
  simp only [blankEnd.2 blank, if_true]

theorem behindStripped {behind value : Text} (valued : Behind behind value) :
    (stripLead? [' '] behind).getD behind = value := by
  cases valued with
  | spaced => simp [stripLead?]
  | plain starts =>
    cases behind with
    | nil => rfl
    | cons c rest =>
      have other : c ≠ ' ' := by simpa using starts
      simp [stripLead?, Ne.symm other]

theorem headedRead {line : Text} {h : Header} (headed : Headed line h) :
    Line.ofText line = .ok (.header h) := by
  obtain @⟨name, blanks, behind, value, flush, free, ends, blank, valued⟩ := headed
  have clean : ':' ∉ name ++ blanks := by
    simp only [List.mem_append, free, false_or]
    exact fun member => absurd (blank _ member) (by decide)
  have named : name ≠ [] := by
    rintro rfl
    simp at ends
  rw [flushRead (by simp) flush, splitOnceAt clean]
  simp only [trimEndBlanks ends blank, named, if_false, behindStripped valued]

theorem headedOfTitled {line : Text} (flush : ¬ Indented line) (titled : Titled line) :
    ∃ h, Headed line h := by
  obtain ⟨front, behind, rfl, free, c, member, solid⟩ := titled
  have whole : trimEnd front ++ front.rtakeWhile isBlank = front :=
    List.rdropWhile_append_rtakeWhile
  have named : trimEnd front ≠ [] := fun nothing => by
    simpa [solid] using blankEnd.1 nothing c member
  have ends : ¬ isBlank ((trimEnd front).getLast named) :=
    List.rdropWhile_last_not isBlank front named
  have value : ∃ value, Behind behind value := by
    cases behind with
    | nil => exact ⟨[], .plain nofun⟩
    | cons d rest =>
      cases space : decide (d = ' ') with
      | true => exact ⟨rest, of_decide_eq_true space ▸ .spaced rest⟩
      | false => exact ⟨d :: rest, .plain (by simpa using space)⟩
  obtain ⟨value, valued⟩ := value
  rw [← whole] at flush free ⊢
  exact ⟨_, .mk flush (fun colon => free (List.mem_append_left _ colon))
    ⟨_, List.getLast?_eq_some_getLast named, by simpa using ends⟩
    (fun _ inside => List.mem_rtakeWhile_imp inside) valued⟩

theorem textRead (text : Text) : Line.ofBytes (encode text) = Line.ofText (withoutEnd text) := by
  simp only [Line.ofBytes, decodeEncode]

theorem sectionIndented {lines : List Text} (indented : ∀ line ∈ lines, Indented (withoutEnd line))
    {rest : List Bytes} {s : Section} (next : ∀ number, sectionFrom number true rest = .ok s)
    (number : Nat) : sectionFrom number true (lines.map encode ++ rest) =
      .ok {s with more := (lines.map withoutEnd).flatMap ('\n' :: ·) ++ s.more} := by
  induction lines generalizing number with
  | nil => simpa using next number
  | cons line others ih =>
    have head := indentedRead (indented line List.mem_cons_self)
    have tail := ih fun other member => indented other (List.mem_cons_of_mem _ member)
    simp only [List.map_cons, List.cons_append, sectionFrom, textRead, head, if_true, tail]
    simp [Except.map, Section.goOn]

theorem sectionEntries {texts : List Text} {headers : List Header} (entries : Entries texts headers)
    {lines : List Text} (same : lines.map withoutEnd = texts) (number : Nat) (below : Bool) :
    sectionFrom number below (lines.map encode) = .ok ⟨[], headers⟩ := by
  induction entries generalizing lines number below with
  | none =>
    cases List.map_eq_nil_iff.1 same
    rfl
  | @entry line h more rest headers headed indented tail ih =>
    rw [List.cons_append] at same
    obtain ⟨first, others, rfl, rfl, behind⟩ := List.map_eq_cons_iff.1 same
    obtain ⟨left, right, rfl, rfl, rfl⟩ := List.map_eq_append_iff.1 behind
    have behind := sectionIndented (by simpa using indented) (fun number => ih rfl number true)
      (number + 1)
    simp only [List.map_cons, List.map_append, sectionFrom, textRead, headedRead headed, behind]
    simp [Except.map, Section.headedBy]

theorem formedCons {above rest : List Text} {line : Text} :
    FormedBelow above (line :: rest) ↔ Fits above line ∧ FormedBelow (above ++ [line]) rest := by
  constructor
  · intro formed
    have first := formed [] line rest rfl
    rw [List.append_nil] at first
    refine ⟨first, fun front other behind same => ?_⟩
    have later := formed (line :: front) other behind (by rw [same]; rfl)
    rwa [List.append_cons] at later
  · rintro ⟨first, later⟩ front other behind same
    cases front with
    | nil =>
      cases same
      simpa using first
    | cons c more =>
      cases same
      rw [List.append_cons]
      exact later more other behind rfl

theorem entriesBelow {lines : List Text} (titled : ∀ line ∈ lines, ¬ Indented line → Titled line) :
    ∃ more rest headers, lines = more ++ rest ∧ (∀ line ∈ more, Indented line) ∧
      Entries rest headers := by
  induction lines with
  | nil => exact ⟨[], [], [], rfl, by simp, .none⟩
  | cons line rest ih =>
    obtain ⟨more, others, headers, rfl, indented, entries⟩ :=
      ih fun other member => titled other (List.mem_cons_of_mem _ member)
    cases starts : decide (Indented line) with
    | true =>
      have all := List.forall_mem_cons.2 ⟨of_decide_eq_true starts, indented⟩
      exact ⟨line :: more, others, headers, rfl, all, entries⟩
    | false =>
      have flush := of_decide_eq_false starts
      obtain ⟨h, headed⟩ := headedOfTitled flush (titled line List.mem_cons_self flush)
      exact ⟨[], _, _, rfl, by simp, .entry headed indented entries⟩

theorem entriesInForm {lines : List Text} (formed : InForm lines) :
    ∃ headers, Entries lines headers := by
  have titled : ∀ line ∈ lines, ¬ Indented line → Titled line := fun line member => by
    obtain ⟨front, behind, same⟩ := List.append_of_mem member
    exact (formed front line behind same).flush
  obtain ⟨more, rest, headers, rfl, indented, entries⟩ := entriesBelow titled
  cases more with
  | nil => exact ⟨headers, entries⟩
  | cons line others =>
    have led := (formed [] line (others ++ rest) rfl).indented (indented line List.mem_cons_self)
    obtain ⟨above, member, _⟩ := led
    contradiction

theorem fitsOrOffends (above : List Text) (text : Text) :
    Fits above (withoutEnd text) ∨ ∃ fault, Offence above (encode text) fault := by
  rcases Classical.em (Indented (withoutEnd text)) with indented | flush
  · rcases Classical.em (Led above) with led | first
    · exact .inl ⟨fun _ => led, fun flush => absurd indented flush⟩
    · exact .inr ⟨_, .orphan indented first⟩
  · cases cut : splitOnce ':' (withoutEnd text) with
    | none => exact .inr ⟨_, .noColon flush (splitOnceNone.1 cut)⟩
    | some sides =>
      obtain ⟨whole, free⟩ := splitOnceSome cut
      cases blank : sides.1.all isBlank with
      | true => exact .inr ⟨_, .emptyName flush whole (by simpa using blank)⟩
      | false =>
        have solid : ∃ c ∈ sides.1, isBlank c = false := by simpa using blank
        exact .inl ⟨fun indented => absurd indented flush, fun _ => ⟨_, _, whole, free, solid⟩⟩

theorem firstOffence (lines : List Bytes) (above : List Text) :
    ∃ (before : List Text) (rest : List Bytes), lines = before.map encode ++ rest ∧
      FormedBelow above (before.map withoutEnd) ∧ (rest = [] ∨ ∃ line after fault,
        rest = line :: after ∧ Offence (above ++ before.map withoutEnd) line fault) := by
  induction lines generalizing above with
  | nil => exact ⟨[], [], rfl, by simp [FormedBelow], .inl rfl⟩
  | cons line rest ih =>
    cases read : decode line with
    | error cause =>
      have noText : ∀ text, line ≠ encode text := fun text same => by
        rw [decodedIff.2 same] at read
        contradiction
      exact ⟨[], _, rfl, by simp [FormedBelow], .inr ⟨line, rest, _, rfl, .badUtf8 noText read⟩⟩
    | ok text =>
      cases decodedIff.1 read
      rcases fitsOrOffends above text with fits | ⟨fault, offence⟩
      · obtain ⟨before, more, rfl, formed, found⟩ := ih (above ++ [withoutEnd text])
        refine ⟨text :: before, more, rfl, formedCons.2 ⟨fits, formed⟩, ?_⟩
        rwa [List.map_cons, List.append_cons]
      · exact ⟨[], _, rfl, by simp [FormedBelow],
          .inr ⟨_, rest, fault, rfl, by rwa [List.map_nil, List.append_nil]⟩⟩

theorem sectionOffence {above before : List Text} {line : Bytes} {fault : Fault} {below : Bool}
    (led : below = true ↔ Led above) (formed : FormedBelow above (before.map withoutEnd))
    (offence : Offence (above ++ before.map withoutEnd) line fault) (left : bare line ≠ [])
    (number : Nat) (after : List Bytes) : sectionFrom number below (before.map encode ++ line :: after) =
      .error ⟨number + before.length, fault⟩ := by
  induction before generalizing above below number with
  | nil =>
    rw [List.map_nil, List.append_nil] at offence
    cases offence with
    | badUtf8 _ found => simp [sectionFrom, Line.ofBytes, found]
    | orphan indented first =>
      have alone : below = false := by simpa [first] using led
      simp [sectionFrom, textRead, indentedRead indented, alone]
    | noColon flush free =>
      have filled := fun nothing => left (textNothing.1 nothing)
      simp [sectionFrom, textRead, colonlessRead filled flush free]
    | emptyName flush titled blank =>
      simp [sectionFrom, textRead, namelessRead flush titled blank]
  | cons text rest ih =>
    obtain ⟨fits, formed⟩ := formedCons.1 formed
    rw [List.map_cons, List.append_cons] at offence
    have lines : number + 1 + rest.length = number + (rest.length + 1) := by omega
    rcases Classical.em (Indented (withoutEnd text)) with indented | flush
    · obtain ⟨header, member, flush⟩ := fits.indented indented
      have here : below = true := led.2 ⟨header, member, flush⟩
      have led : Led (above ++ [withoutEnd text]) := ⟨header, List.mem_append_left _ member, flush⟩
      have behind := ih (iff_of_true rfl led) formed offence (number + 1)
      simp [sectionFrom, textRead, indentedRead indented, here, behind, Except.map, lines]
    · obtain ⟨h, headed⟩ := headedOfTitled flush (fits.flush flush)
      have led : Led (above ++ [withoutEnd text]) := ⟨_, List.mem_concat_self, flush⟩
      have behind := ih (iff_of_true rfl led) formed offence (number + 1)
      simp [sectionFrom, textRead, headedRead headed, behind, Except.map, lines]

theorem blockEntries {input : Bytes} {lines : List Text} {headers : List Header}
    (written : blockLines input = lines.map encode) (entries : Entries (lines.map withoutEnd) headers) :
    block input = .ok headers := by
  rw [blockOnLines, written, sectionEntries entries rfl]
  rfl

theorem blockOffence {input line : Bytes} {before : List Text} {after : List Bytes} {fault : Fault}
    (here : blockLines input = before.map encode ++ line :: after)
    (formed : InForm (before.map withoutEnd)) (offence : Offence (before.map withoutEnd) line fault) :
    block input = .error ⟨before.length + 1, fault⟩ := by
  have member : line ∈ blockLines input := by simp [here]
  have first : false = true ↔ Led [] := by simp [Led]
  rw [blockOnLines, here, sectionOffence first formed offence (lineLeft member),
    Nat.add_comm]
  rfl

theorem blockAccepted {input : Bytes} {headers : List Header} (accepted : block input = .ok headers) :
    ∃ lines : List Text, blockLines input = lines.map encode ∧ InForm (lines.map withoutEnd) := by
  obtain ⟨lines, rest, whole, formed, rfl | ⟨line, after, fault, rfl, offence⟩⟩ :=
    firstOffence (blockLines input) []
  · exact ⟨lines, by rw [whole, List.append_nil], formed⟩
  · rw [blockOffence whole formed offence] at accepted
    contradiction

theorem blockRefused {input : Bytes} {number : Nat} {fault : Fault}
    (refused : block input = .error ⟨number, fault⟩) :
    ∃ (before : List Text) (line : Bytes) (after : List Bytes),
      blockLines input = before.map encode ++ line :: after ∧ number = before.length + 1 ∧
        InForm (before.map withoutEnd) ∧ Offence (before.map withoutEnd) line fault := by
  obtain ⟨before, rest, whole, formed, rfl | ⟨line, after, other, rfl, offence⟩⟩ :=
    firstOffence (blockLines input) []
  · obtain ⟨headers, entries⟩ := entriesInForm formed
    rw [blockEntries (by rw [whole, List.append_nil]) entries] at refused
    contradiction
  · rw [blockOffence whole formed offence] at refused
    cases refused
    exact ⟨before, line, after, whole, rfl, formed, offence⟩

theorem textKept {text : Text} {number : Nat} {cause : Utf8.Fault} :
    block (encode text) ≠ .error ⟨number, .badUtf8 cause⟩ := by
  intro refused
  obtain ⟨before, line, after, whole, _, _, offence⟩ := blockRefused refused
  obtain ⟨lines, cuts⟩ := linesEncoded text
  have member : line ∈ rawLines (encode text) :=
    (List.takeWhile_sublist _).subset (show line ∈ blockLines (encode text) by simp [whole])
  rw [cuts] at member
  obtain ⟨other, _, same⟩ := List.mem_map.1 member
  cases offence with
  | badUtf8 noText _ => exact noText other same.symm

/-- A block is read exactly when its lines are in form, and then gives a header for each line that is
not indented; else the first line that offends is named. -/
theorem blockGrammar (input : Bytes) :
    Cut input (rawLines input) ∧
    (∀ headers, block input = .ok headers ↔
      ∃ lines : List Text, blockLines input = lines.map encode ∧ Entries (lines.map withoutEnd) headers) ∧
    ((∃ headers, block input = .ok headers) ↔
      ∃ lines : List Text, blockLines input = lines.map encode ∧ InForm (lines.map withoutEnd)) ∧
    (∀ number fault, block input = .error ⟨number, fault⟩ ↔
      ∃ (before : List Text) (line : Bytes) (after : List Bytes),
      blockLines input = before.map encode ++ line :: after ∧ number = before.length + 1 ∧
        InForm (before.map withoutEnd) ∧ Offence (before.map withoutEnd) line fault) ∧
    (input.getLast? = some 0x0A → (∃ line ∈ rawLines input, bare line = []) →
      ∀ rest, block (input ++ rest) = block input) ∧
    (∀ text, input = encode text →
      ∀ number cause, block input ≠ .error ⟨number, .badUtf8 cause⟩) := by
  refine ⟨cut input, fun headers => ⟨fun accepted => ?_, ?_⟩, ⟨?_, ?_⟩, fun number fault => ⟨?_, ?_⟩,
    fun ended empty rest => ?_, ?_⟩
  · obtain ⟨lines, written, formed⟩ := blockAccepted accepted
    obtain ⟨others, entries⟩ := entriesInForm formed
    rw [blockEntries written entries] at accepted
    cases accepted
    exact ⟨lines, written, entries⟩
  · rintro ⟨lines, written, entries⟩
    exact blockEntries written entries
  · rintro ⟨headers, accepted⟩
    exact blockAccepted accepted
  · rintro ⟨lines, written, formed⟩
    obtain ⟨headers, entries⟩ := entriesInForm formed
    exact ⟨headers, blockEntries written entries⟩
  · exact blockRefused
  · rintro ⟨before, line, after, here, rfl, formed, offence⟩
    exact blockOffence here formed offence
  · rw [blockOnLines, blockLinesAppend ended empty, blockOnLines]
  · rintro text rfl number cause
    exact textKept

theorem strayBytesBehind :
    (encode "Name: a\r\n\r\n".toList).getLast? = some 0x0A ∧
    (∃ line ∈ rawLines (encode "Name: a\r\n\r\n".toList), bare line = []) ∧
    block (encode "Name: a\r\n\r\n".toList ++ [0xFF]) = block (encode "Name: a\r\n\r\n".toList) ∧
    block (encode "Name: a\r\n\r\n".toList) ≠ .error ⟨3, .badUtf8 (.invalid 1 0)⟩ := by
  have ended : (encode "Name: a\r\n\r\n".toList).getLast? = some 0x0A := by decide +kernel
  have empty : ∃ line ∈ rawLines (encode "Name: a\r\n\r\n".toList), bare line = [] := by
    decide +kernel
  obtain ⟨_, _, _, _, behind, kept⟩ := blockGrammar (encode "Name: a\r\n\r\n".toList)
  exact ⟨ended, empty, behind ended empty [0xFF], kept _ rfl _ _⟩

end PkgInfo.Header
