import Mathlib.Data.Bool.AllAny
import PkgInfo.Predicate.Basic
import PkgInfo.Proofs.Text.Dotted
import PkgInfo.Proofs.Text.Trimming

/-! Version numbers and their texts. A number that is read has runs of digits in each of its parts, and
the parts put together again are the text it was read from, less the blanks around it. So a number that
was read once is read again from its own text. -/
namespace PkgInfo.Predicate
open Text

theorem dottedSolid {c : Char} (dotted : isDottedChar c = true) : isBlank c = false := by
  rcases Bool.or_eq_true_iff.1 dotted with word | dot
  · exact wordSolid word
  · rw [eq_of_beq dot]
    decide

theorem decimalDotted {c : Char} (decimal : isDecimal c = true) : isDottedChar c = true := by
  simp [isDottedChar, isWord, decimal]

structure Digits (run : Text) : Prop where
  some : run ≠ []
  each : ∀ c ∈ run, isDecimal c = true

namespace Number

structure Formed (n : Number) : Prop where
  several : 2 ≤ n.release.length
  release : ∀ run ∈ n.release, Digits run
  preRelease : ∀ part ∈ n.preRelease, ∀ run ∈ part.2, Digits run
  post : ∀ digits ∈ n.post, Digits digits
  dev : ∀ digits ∈ n.dev, Digits digits

def phaseText (part : Option (Phase × List Text)) : Text :=
  part.elim [] fun (phase, runs) => phase.spelling ++ runsText runs

def suffixText (word : Text) (part : Option Text) : Text := part.elim [] (word ++ ·)

section
variable {text rest : Text}

theorem runsRead {runs : List Text} (cut : splitRuns text = (runs, rest)) :
    text = runsText runs ++ rest ∧ ∀ run ∈ runs, Digits run := by
  unfold splitRuns at cut
  split at cut
  · next start =>
    obtain ⟨rfl, rfl⟩ := Prod.mk.inj cut
    have words := dottedWords (fun _ decimal => decimal) (by decide : isDecimal '.' = false) start
    refine ⟨?_, fun run member => ⟨?_, (words run member).2⟩⟩
    · rw [runsText, joinedPieces, splitDottedAppend]
    · rintro rfl
      exact absurd (words [] member).1 (by simp)
  · obtain ⟨rfl, rfl⟩ := Prod.mk.inj cut
    exact ⟨rfl, nofun⟩

theorem phaseRead {phase : Phase} (cut : splitPhase? text = some (phase, rest)) :
    text = phase.spelling ++ rest := by
  unfold splitPhase? at cut
  split at cut <;> cases cut <;> rfl

theorem preReleaseRead {part : Option (Phase × List Text)}
    (cut : splitPreRelease text = (part, rest)) :
    text = phaseText part ++ rest ∧ ∀ p ∈ part, ∀ run ∈ p.2, Digits run := by
  unfold splitPreRelease at cut
  split at cut
  · next phase behind found =>
    split at cut
    · obtain ⟨rfl, rfl⟩ := Prod.mk.inj cut
      exact ⟨rfl, nofun⟩
    · next runs left same =>
      obtain ⟨rfl, rfl⟩ := Prod.mk.inj cut
      obtain ⟨whole, digits⟩ := runsRead same
      refine ⟨?_, fun p member => ?_⟩
      · rw [phaseRead found, whole, phaseText, Option.elim, List.append_assoc]
      · obtain rfl := Option.mem_some_iff.1 member
        exact digits
  · obtain ⟨rfl, rfl⟩ := Prod.mk.inj cut
    exact ⟨rfl, nofun⟩

theorem suffixRead {word : Text} {part : Option Text} (cut : splitSuffix word text = (part, rest)) :
    text = suffixText word part ++ rest ∧ ∀ digits ∈ part, Digits digits := by
  unfold splitSuffix at cut
  split at cut
  · next behind found =>
    split at cut
    · obtain ⟨rfl, rfl⟩ := Prod.mk.inj cut
      exact ⟨rfl, nofun⟩
    · next some =>
      obtain ⟨rfl, rfl⟩ := Prod.mk.inj cut
      refine ⟨?_, fun digits member => ?_⟩
      · rw [stripLeadSome.1 found, suffixText, Option.elim, List.append_assoc,
          List.takeWhile_append_dropWhile]
      · obtain rfl := Option.mem_some_iff.1 member
        exact ⟨some, fun c inside => List.mem_takeWhile_imp inside⟩
  · obtain ⟨rfl, rfl⟩ := Prod.mk.inj cut
    exact ⟨rfl, nofun⟩

end

theorem readFormed {text : Text} {n : Number} (read : ofText? text = some n) :
    n.Formed ∧ n.text = trim text := by
  unfold ofText? at read
  cases first : splitRuns (trim text) with | mk release rest₁ =>
  cases second : splitPreRelease rest₁ with | mk preRelease rest₂ =>
  cases third : splitSuffix postWord rest₂ with | mk post rest₃ =>
  cases fourth : splitSuffix devWord rest₃ with | mk dev rest₄ =>
  simp only [first, second, third, fourth] at read
  split at read
  · next whole =>
    obtain rfl := Option.some.inj read
    obtain ⟨front, runs⟩ := runsRead first
    obtain ⟨pre, phases⟩ := preReleaseRead second
    obtain ⟨posted, posts⟩ := suffixRead third
    obtain ⟨devised, devs⟩ := suffixRead fourth
    refine ⟨⟨whole.1, runs, phases, posts, devs⟩, ?_⟩
    rw [front, pre, posted, devised, whole.2, List.append_nil]
    simp [Number.text, phaseText, suffixText]
  · contradiction

theorem ofTextTrim (text : Text) : ofText? (trim text) = ofText? text := by
  simp only [ofText?, trimTwice]

def Normal (n : Number) : Prop := ofText? n.text = some n

theorem readNormal {text : Text} {n : Number} (read : ofText? text = some n) : n.Normal := by
  rw [Normal, (readFormed read).2, ofTextTrim]
  exact read

theorem runsDotted {runs : List Text} (digits : ∀ run ∈ runs, Digits run) :
    ∀ c ∈ runsText runs, isDottedChar c = true :=
  joinedEach (List.all_eq_true.1 (by decide)) fun run member c inside =>
    decimalDotted ((digits run member).each c inside)

theorem phaseDotted {part : Option (Phase × List Text)}
    (digits : ∀ p ∈ part, ∀ run ∈ p.2, Digits run) : ∀ c ∈ phaseText part, isDottedChar c = true := by
  cases part with
  | none => nofun
  | some p =>
    refine List.forall_mem_append.2 ⟨?_, runsDotted (digits p rfl)⟩
    cases p.1 <;> exact List.all_eq_true.1 (by decide +kernel)

theorem suffixDotted {word : Text} (letters : ∀ c ∈ word, isDottedChar c = true) {part : Option Text}
    (digits : ∀ run ∈ part, Digits run) : ∀ c ∈ suffixText word part, isDottedChar c = true := by
  cases part with
  | none => nofun
  | some run =>
    have run : ∀ c ∈ run, isDottedChar c = true :=
      fun c inside => decimalDotted ((digits run rfl).each c inside)
    exact List.forall_mem_append.2 ⟨letters, run⟩

theorem formedDotted {n : Number} (formed : n.Formed) : ∀ c ∈ n.text, isDottedChar c = true := by
  have post : ∀ c ∈ suffixText postWord n.post, isDottedChar c = true :=
    suffixDotted (List.all_eq_true.1 (by decide +kernel)) formed.post
  have dev : ∀ c ∈ suffixText devWord n.dev, isDottedChar c = true :=
    suffixDotted (List.all_eq_true.1 (by decide +kernel)) formed.dev
  simp only [Number.text, List.forall_mem_append]
  exact ⟨⟨⟨runsDotted formed.release, phaseDotted formed.preRelease⟩, post⟩, dev⟩

theorem releasePoint {release : List Text} (several : 2 ≤ release.length)
    (digits : ∀ run ∈ release, Digits run) :
    ∃ run behind, Digits run ∧ runsText release = run ++ '.' :: behind := by
  cases release with
  | nil => contradiction
  | cons first others =>
    cases others with
    | nil => exact absurd several (by simp)
    | cons second more =>
      have whole : runsText (first :: second :: more) = first ++ '.' :: runsText (second :: more) := by
        simp [runsText, joined]
      exact ⟨first, _, digits first List.mem_cons_self, whole⟩

theorem formedPoint {n : Number} (formed : n.Formed) :
    ∃ run behind, Digits run ∧ n.text = run ++ '.' :: behind := by
  obtain ⟨run, behind, digits, whole⟩ := releasePoint formed.several formed.release
  simp only [Number.text, whole, List.append_assoc, List.cons_append]
  exact ⟨run, _, digits, rfl⟩

end Number
end PkgInfo.Predicate
