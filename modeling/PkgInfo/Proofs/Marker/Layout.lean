import PkgInfo.Proofs.Marker.Spelling
import PkgInfo.Proofs.Text.Trimming

/-! Where the tokens of a marker stand in it. Between them lies nothing but blanks, so a text and its
tokens hold the same other characters in the same order. The spellings of the tokens, put together with
single spaces, are cut into the same tokens again. -/
namespace PkgInfo.Marker
open Text

inductive Token.Written : Token → Text → Prop where
  | spelled {t : Token} (more : t ≠ .stop) (other : t ≠ .operator .outside) :
      Token.Written t t.spelling
  | outside {gap : Text} (apart : gap ≠ []) (blank : ∀ c ∈ gap, isBlank c = true) :
      Token.Written (.operator .outside) ("not".toList ++ gap ++ "in".toList)

inductive Laid : Text → List Token → Prop where
  | stop {gap : Text} (blank : ∀ c ∈ gap, isBlank c = true) : Laid gap [.stop]
  | next {gap lexeme rest : Text} {t : Token} {others : List Token}
      (blank : ∀ c ∈ gap, isBlank c = true) (written : t.Written lexeme) (onward : Laid rest others) :
      Laid (gap ++ lexeme ++ rest) (t :: others)

theorem splitEnds (text : Text) : ∀ c ∈ (splitWord text).2.head?, isNamePart c = false := by
  induction text with
  | nil => nofun
  | cons c rest ih =>
    simp only [splitWord, splitDotted] at ih ⊢
    split
    · exact ih
    · next ends =>
      intro d first
      obtain rfl : c = d := Option.some.inj first
      simp only [Bool.or_eq_true, not_or] at ends
      simpa using ends.1

-- What follows `not` starts with no part of a name, so the blanks in front of `in` are there.
theorem outsideWritten {after : Text} (ends : ∀ c ∈ after.head?, isNamePart c = false)
    (follows : (trimStart after).takeWhile isNamePart = "in".toList) :
    ∃ gap, gap ≠ [] ∧ (∀ c ∈ gap, isBlank c = true) ∧
      after = gap ++ "in".toList ++ (trimStart after).dropWhile isNamePart := by
  obtain ⟨gap, blank, whole⟩ := startSplit after
  have next : trimStart after = "in".toList ++ (trimStart after).dropWhile isNamePart := by
    rw [← follows, List.takeWhile_append_dropWhile]
  refine ⟨gap, ?_, blank, by rw [List.append_assoc, ← next]; exact whole⟩
  rintro rfl
  rw [whole, List.nil_append, next] at ends
  exact absurd (ends 'i' rfl) (by decide)

theorem wordParts {text word after : Text} (cut : splitWord text = (word, after)) : text = word ++ after := by
  have parts : (splitWord text).1 ++ (splitWord text).2 = text := splitDottedAppend _ _ text
  rw [← parts, cut]

theorem lexemeWritten {t : Token} {text rest : Text} (taken : Lexeme t text rest) :
    ∃ lexeme, t.Written lexeme ∧ text = lexeme ++ rest := by
  cases taken with
  | connective k cut => exact ⟨_, .spelled (by simp) (by simp), wordParts cut⟩
  | inside cut => exact ⟨_, .spelled (by simp) (by simp), wordParts cut⟩
  | name start cut plain => exact ⟨_, .spelled (by simp) (by simp), wordParts cut⟩
  | @outside _ after cut follows =>
    have ends := splitEnds text
    rw [cut] at ends
    obtain ⟨gap, apart, blank, behind⟩ := outsideWritten ends follows
    refine ⟨_, .outside apart blank, ?_⟩
    rw [wordParts cut, List.append_assoc _ gap, List.append_assoc, ← behind]
  | literal mark free => exact ⟨_, .spelled (by simp) (by simp), by simp [Token.spelling]⟩
  | sign word => exact ⟨_, .spelled (by simp) fun same => word.2 (Token.operator.inj same), rfl⟩

theorem lexedLaid {text : Text} {ts : List Token} (lexed : Lexed text ts none) : Laid text ts := by
  generalize nothing : (none : Option Stuck) = stuck at lexed
  induction lexed with
  | stuck found => contradiction
  | stop found =>
    rcases cutTaken found with ⟨-, rest⟩ | taken
    · exact .stop (blankStart.1 rest)
    · cases taken
  | @next text t others stuck found more onward ih =>
    have taken := (cutTaken found).resolve_left fun ends => more ends.1
    obtain ⟨lexeme, written, behind⟩ := lexemeWritten taken
    obtain ⟨gap, blank, whole⟩ := startSplit text
    rw [whole, behind, ← List.append_assoc]
    exact .next blank written (ih nothing)

def solids (text : Text) : Text := text.filter fun c => !isBlank c

theorem solidsAppend (left right : Text) : solids (left ++ right) = solids left ++ solids right :=
  List.filter_append left right

theorem solidsBlank {gap : Text} (blank : ∀ c ∈ gap, isBlank c = true) : solids gap = [] :=
  List.filter_eq_nil_iff.2 fun c member => by simp [blank c member]

theorem solidsWritten {t : Token} {lexeme : Text} (written : t.Written lexeme) :
    solids lexeme = solids t.spelling := by
  cases written with
  | spelled more other => rfl
  | outside apart blank =>
    rw [solidsAppend, solidsAppend, solidsBlank blank]
    decide

theorem laidSolids {text : Text} {ts : List Token} (laid : Laid text ts) :
    solids text = ts.flatMap fun t => solids t.spelling := by
  induction laid with
  | stop blank => rw [solidsBlank blank]; rfl
  | next blank written onward ih =>
    rw [solidsAppend, solidsAppend, solidsBlank blank, solidsWritten written, ih]
    rfl

theorem spacedJoined {ts : List Token} (some : ts ≠ []) :
    ' ' :: joined [' '] (ts.map Token.spelling) = spaced ts := by
  obtain ⟨t, rest, rfl⟩ := List.exists_cons_of_ne_nil some
  rw [List.map_cons, joinedCons, spaced, List.flatMap_cons, List.flatMap_map]
  rfl

theorem tokenizeSpaced {ts : List Token} (readable : ∀ t ∈ ts, t.Readable) (fresh : .stop ∉ ts) :
    tokenize (joined [' '] (ts.map Token.spelling)) = .ok (ts ++ [.stop]) := by
  rw [tokenizeOk]
  cases ts with
  | nil => rw [tokens]; rfl
  | cons t rest =>
    rw [← tokensSpace, spacedJoined (List.cons_ne_nil t rest), ← List.append_nil (spaced _)]
    exact tokensSpaced readable fresh (by simp [Apart]) rfl

theorem tokenizeWhole {ts : List Token} (readable : ∀ t ∈ ts, t.Readable) (fresh : .stop ∉ ts) :
    tokenize (joined [' '] ((ts ++ [Token.stop]).map Token.spelling)) = .ok (ts ++ [.stop]) := by
  have ends : spaced [Token.stop] = [' '] := rfl
  rw [tokenizeOk, ← tokensSpace, spacedJoined (by simp), spacedAppend, ends]
  exact tokensSpaced readable fresh (by simp [Apart]) rfl

/-- A text with tokens is blanks, the first token, blanks, the second, and so on up to the end, which
comes last and once; and its tokens written with single spaces are cut into the same again. -/
theorem tokensLaidOut {source : Text} {ts : List Token} (tokenized : tokenize source = .ok ts) :
    Laid source ts ∧
      (solids source = ts.flatMap fun t => solids t.spelling) ∧
      ∃ before, ts = before ++ [.stop] ∧ .stop ∉ before ∧
        tokenize (joined [' '] (before.map Token.spelling)) = .ok ts ∧
        tokenize (joined [' '] (ts.map Token.spelling)) = .ok ts := by
  have lexing := lexed source
  rw [tokenizeOk.1 tokenized] at lexing
  have laid : Laid source ts := lexedLaid lexing
  refine ⟨laid, laidSolids laid, ?_⟩
  cases lexedEnded lexing with
  | whole before fresh =>
    have readable : ∀ t ∈ before, t.Readable :=
      fun t member => lexedReadable lexing t (List.mem_append_left _ member)
    exact ⟨before, rfl, fresh, tokenizeSpaced readable fresh, tokenizeWhole readable fresh⟩

theorem tokensLaidOutCrowded :
    tokenize "'win'not \tin  sys.platform".toList =
        .ok [.literal "'win'".toList, .operator .outside, .name "sys.platform".toList, .stop] ∧
      solids "'win'not \tin  sys.platform".toList = "'win'notinsys.platform".toList ∧
      tokenize "'win' not in sys.platform ".toList =
        .ok [.literal "'win'".toList, .operator .outside, .name "sys.platform".toList, .stop] := by
  have tokenized : tokenize "'win'not \tin  sys.platform".toList =
      .ok [.literal "'win'".toList, .operator .outside, .name "sys.platform".toList, .stop] := by
    decide +kernel
  obtain ⟨_, same, _, _, _, _, again⟩ := tokensLaidOut tokenized
  exact ⟨tokenized, same, again⟩

end PkgInfo.Marker
