import PkgInfo.Proofs.Predicate.Number

/-! The grammar of version numbers. A number whose parts are in order is read from its own text, each part
as far as it goes, though points part the runs of digits and start the suffixes too. So a text is a version
exactly where such parts make it up, and no other parts do. -/
namespace PkgInfo.Predicate
open Text

theorem digitsStart {run : Text} (digits : Digits run) : run.head?.any isDecimal = true := by
  obtain ⟨c, more, rfl⟩ := List.exists_cons_of_ne_nil digits.some
  exact digits.each c List.mem_cons_self

namespace Number

-- Runs behind a phase are optional in its text, so their being there is said apart.
structure Grammatical (n : Number) : Prop extends Formed n where
  phased : ∀ part ∈ n.preRelease, part.2 ≠ []

def Stops (rest : Text) : Prop := splitDotted isDecimal isDecimal rest = ([], rest)

section
variable {rest : Text}

theorem stopsOther {c : Char} (other : isDecimal c = false) (noDot : c ≠ '.') : Stops (c :: rest) := by
  simp [Stops, splitDotted, other, noDot]

theorem stopsDot {c : Char} (other : isDecimal c = false) : Stops ('.' :: c :: rest) := by
  have dot : isDecimal '.' = false := by decide
  simp [Stops, splitDotted, other, dot]

theorem stopsHead (stops : Stops rest) : ∀ c ∈ rest.head?, isDecimal c = false := by
  intro c first
  obtain ⟨more, rfl⟩ := List.head?_eq_some_iff.1 first
  cases decimal : isDecimal c with
  | false => rfl
  | true => simp [Stops, splitDotted, decimal] at stops

theorem runsCut {runs : List Text} (some : runs ≠ []) (digits : ∀ run ∈ runs, Digits run)
    (stops : Stops rest) : splitRuns (runsText runs ++ rest) = (runs, rest) := by
  have words : ∀ run ∈ runs, run.head?.any isDecimal = true ∧ ∀ c ∈ run, isDecimal c = true :=
    fun run member => ⟨digitsStart (digits run member), (digits run member).each⟩
  have start : (runsText runs ++ rest).head?.any isDecimal = true := by
    obtain ⟨first, others, rfl⟩ := List.exists_cons_of_ne_nil some
    rw [runsText, joinedCons, List.append_assoc]
    exact startsAppend (words first List.mem_cons_self).1 _
  have free : ∀ run ∈ runs, '.' ∉ run := by
    intro run member dot
    have decimal := (digits run member).each '.' dot
    contradiction
  have whole : splitDotted isDecimal isDecimal (runsText runs ++ rest) = (runsText runs, rest) :=
    dottedJoined some words stops
  simp only [splitRuns, start, if_true, whole]
  rw [runsText, piecesJoined some free]

theorem phaseCut (phase : Phase) (rest : Text) :
    splitPhase? (phase.spelling ++ rest) = some (phase, rest) := by
  cases phase <;> rfl

theorem preReleaseCut {part : Option (Phase × List Text)} (digits : ∀ p ∈ part, ∀ run ∈ p.2, Digits run)
    (phased : ∀ p ∈ part, p.2 ≠ []) (stops : Stops rest) (apart : splitPhase? rest = none) :
    splitPreRelease (phaseText part ++ rest) = (part, rest) := by
  cases part with
  | none => simp only [phaseText, Option.elim, List.nil_append, splitPreRelease, apart]
  | some p =>
    obtain ⟨phase, runs⟩ := p
    have some := phased _ rfl
    have cut := runsCut some (digits _ rfl) stops
    obtain ⟨first, others, rfl⟩ := List.exists_cons_of_ne_nil some
    simp only [phaseText, Option.elim, List.append_assoc, splitPreRelease, phaseCut, cut]

theorem suffixCut {word : Text} {part : Option Text} (digits : ∀ run ∈ part, Digits run)
    (stops : Stops rest) (apart : stripLead? word rest = none) :
    splitSuffix word (suffixText word part ++ rest) = (part, rest) := by
  cases part with
  | none => simp only [suffixText, Option.elim, List.nil_append, splitSuffix, apart]
  | some run =>
    obtain ⟨some, each⟩ := digits run rfl
    obtain ⟨none, all⟩ := spanStops (stopsHead stops)
    obtain ⟨c, more, rfl⟩ := List.exists_cons_of_ne_nil some
    have lead : stripLead? word (word ++ (c :: more ++ rest)) = .some (c :: more ++ rest) :=
      stripLeadSome.2 rfl
    simp only [suffixText, Option.elim, List.append_assoc, splitSuffix, lead,
      List.takeWhile_append_of_pos each, List.dropWhile_append_of_pos each, none, all, List.append_nil]

theorem phaseStops {part : Option (Phase × List Text)} (stops : Stops rest) :
    Stops (phaseText part ++ rest) := by
  cases part with
  | none => exact stops
  | some p =>
    obtain ⟨phase, runs⟩ := p
    cases phase <;> exact stopsOther (by decide) (by decide)

theorem suffixStops {word : Text} {c : Char} (other : isDecimal c = false) (part : Option Text)
    (stops : Stops rest) : Stops (suffixText ('.' :: c :: word) part ++ rest) := by
  cases part with
  | none => exact stops
  | some run => exact stopsDot other

theorem suffixNoPhase {word : Text} (part : Option Text) (apart : splitPhase? rest = none) :
    splitPhase? (suffixText ('.' :: word) part ++ rest) = none := by
  cases part with
  | none => exact apart
  | some run => rfl

theorem phasedRead {text : Text} {part : Option (Phase × List Text)}
    (cut : splitPreRelease text = (part, rest)) : ∀ p ∈ part, p.2 ≠ [] := by
  unfold splitPreRelease at cut
  split at cut
  · split at cut
    · cases cut
      nofun
    · next some _ =>
      cases cut
      intro p member
      obtain rfl := Option.mem_some_iff.1 member
      exact some
  · cases cut
    nofun

end

theorem readGrammatical {text : Text} {n : Number} (read : ofText? text = some n) : n.Grammatical := by
  refine ⟨(readFormed read).1, ?_⟩
  unfold ofText? at read
  cases first : splitRuns (trim text) with | mk release rest₁ =>
  cases second : splitPreRelease rest₁ with | mk preRelease rest₂ =>
  simp only [first, second] at read
  split at read
  · cases read
    exact phasedRead second
  · contradiction

theorem grammaticalNormal {n : Number} (grammatical : n.Grammatical) : n.Normal := by
  have solid : trim n.text = n.text :=
    trimSolid fun c member => dottedSolid (formedDotted grammatical.toFormed c member)
  have some : n.release ≠ [] := List.ne_nil_of_length_pos (by have several := grammatical.several; omega)
  have devStops : Stops (suffixText devWord n.dev ++ []) := suffixStops (by decide) n.dev rfl
  have postStops : Stops (suffixText postWord n.post ++ (suffixText devWord n.dev ++ [])) :=
    suffixStops (by decide) n.post devStops
  have noPhase : splitPhase? (suffixText postWord n.post ++ (suffixText devWord n.dev ++ [])) = none :=
    suffixNoPhase n.post (suffixNoPhase n.dev rfl)
  have noPost : stripLead? postWord (suffixText devWord n.dev ++ []) = none := by
    cases n.dev <;> rfl
  have parts : n.text = runsText n.release ++ (phaseText n.preRelease ++
      (suffixText postWord n.post ++ (suffixText devWord n.dev ++ []))) := by
    simp [Number.text, phaseText, suffixText]
  have dev : splitSuffix devWord (suffixText devWord n.dev ++ []) = (n.dev, []) :=
    suffixCut grammatical.dev rfl rfl
  unfold Normal ofText?
  rw [solid, parts]
  simp only [runsCut some grammatical.release (phaseStops postStops),
    preReleaseCut grammatical.preRelease grammatical.phased postStops noPhase,
    suffixCut grammatical.post devStops noPost, dev, grammatical.several, and_self, if_true]

theorem readIff {text : Text} {n : Number} :
    ofText? text = some n ↔ n.Grammatical ∧ n.text = trim text := by
  constructor
  · intro read
    exact ⟨readGrammatical read, (readFormed read).2⟩
  · intro ⟨grammatical, whole⟩
    have normal := grammaticalNormal grammatical
    rwa [Normal, whole, ofTextTrim] at normal

example : (ofText? " 1.0rc2.3.post4.dev5 ".toList).map text = some "1.0rc2.3.post4.dev5".toList ∧
    ofText? "1.0-beta".toList = none ∧ ofText? "1.0.dev1.post2".toList = none := by decide +kernel

theorem grammaticalUnique {m n : Number} (left : m.Grammatical) (right : n.Grammatical)
    (same : m.text = n.text) : m = n := by
  have read := grammaticalNormal left
  rw [Normal, same, grammaticalNormal right] at read
  exact (Option.some.inj read).symm

end Number

/-- A text is a version exactly where the parts of a number in order make it up, less the blanks around
it. These are the parts that are read, and no others make up the same text. -/
theorem versionGrammar :
    (∀ text, isVersion text = true ↔ ∃ n : Number, n.Grammatical ∧ n.text = trim text) ∧
    (∀ text n, Number.ofText? text = some n ↔ n.Grammatical ∧ n.text = trim text) ∧
    ∀ m n : Number, m.Grammatical → n.Grammatical → m.text = n.text → m = n := by
  refine ⟨fun text => ?_, fun _ _ => Number.readIff, fun _ _ => Number.grammaticalUnique⟩
  rw [isVersion, Option.isSome_iff_exists]
  exact exists_congr fun n => Number.readIff

def parted : Number := ⟨[['١'], ['٢', '0']], some (.rc, [['3'], ['4']]), some ['5'], some ['6']⟩

theorem versionGrammarParted :
    isVersion " ١.٢0rc3.4.post5.dev6\n".toList = true ∧ parted.Grammatical ∧
      parted.text = "١.٢0rc3.4.post5.dev6".toList ∧
      Number.ofText? "١.٢0rc3.4.post5.dev6".toList = some parted := by
  have read : Number.ofText? " ١.٢0rc3.4.post5.dev6\n".toList = some parted := by decide +kernel
  obtain ⟨accepted, parts, _⟩ := versionGrammar
  obtain ⟨grammatical, whole⟩ := (parts _ _).1 read
  exact ⟨(accepted _).2 ⟨parted, grammatical, whole⟩, grammatical, by decide,
    (parts _ _).2 ⟨grammatical, by decide +kernel⟩⟩

end PkgInfo.Predicate
