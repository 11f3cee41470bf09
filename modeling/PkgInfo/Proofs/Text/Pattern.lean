import PkgInfo.Proofs.Text.Trimming

/-! Patterns that are tried in a fixed order. A pattern takes a text in several ways, the preferred ones
first: an earlier choice before a later one, one round more before one less. Matched against a whole text it
gives the groups of the first way that leaves nothing. -/
namespace PkgInfo.Text

inductive Pattern where
  | empty
  | one (accepts : Char → Bool)
  | seq (first second : Pattern)
  | either (first second : Pattern)
  | many (body : Pattern)
  | group (body : Pattern)

namespace Pattern

def word (text : Text) : Pattern := text.foldr (fun c => seq (one (· == c))) empty

def several (accepts : Char → Bool) : Pattern := seq (one accepts) (many (one accepts))

def optional (p : Pattern) : Pattern := either p empty

structure Way where
  groups : List Text
  rest : Text

def Way.onto (groups : List Text) (way : Way) : Way := {way with groups := groups ++ way.groups}

def rounds (body : Text → List Way) (text : Text) : List Way :=
  (body text).flatMap (fun way =>
    if way.rest.length < text.length then (rounds body way.rest).map (.onto way.groups) else []) ++
    [⟨[], text⟩]
termination_by text.length

def ways : Pattern → Text → List Way
  | empty, text => [⟨[], text⟩]
  | one _, [] => []
  | one accepts, c :: rest => if accepts c then [⟨[], rest⟩] else []
  | seq p q, text => (p.ways text).flatMap fun way => (q.ways way.rest).map (.onto way.groups)
  | either p q, text => p.ways text ++ q.ways text
  | many p, text => rounds p.ways text
  | group p, text => (p.ways text).map fun way =>
      {way with groups := text.take (text.length - way.rest.length) :: way.groups}

def first {α : Type} (p : Pattern) (next : List Text → Text → Option α) (text : Text) : Option α :=
  (p.ways text).findSome? fun way => next way.groups way.rest

def atEnd (groups : List Text) (rest : Text) : Option (List Text) := if rest = [] then some groups else none

def groups? (p : Pattern) (text : Text) : Option (List Text) := p.first atEnd text

section
variable {α : Type} {p q : Pattern} {accepts : Char → Bool} {next : List Text → Text → Option α}
  {text rest : Text} {c : Char}

@[simp] theorem firstEmpty : empty.first next text = next [] text := by simp [first, ways]

@[simp] theorem firstOneNil : (one accepts).first next [] = none := rfl

@[simp] theorem firstOne :
    (one accepts).first next (c :: rest) = if accepts c then next [] rest else none := by
  simp only [first, ways]
  split <;> simp

theorem findFlat {β γ : Type} (items : List β) (f : β → List γ) (g : γ → Option α) :
    (items.flatMap f).findSome? g = items.findSome? fun item => (f item).findSome? g := by
  induction items with
  | nil => rfl
  | cons item rest ih =>
    rw [List.flatMap_cons, List.findSome?_append, ih, List.findSome?_cons]
    cases (f item).findSome? g <;> rfl

@[simp] theorem firstSeq : (seq p q).first next text =
    p.first (fun groups mid => q.first (fun more => next (groups ++ more)) mid) text := by
  simp only [first, ways, findFlat, List.findSome?_map]
  rfl

@[simp] theorem firstEither :
    (either p q).first next text = (p.first next text).or (q.first next text) := by
  simp [first, ways, List.findSome?_append]

@[simp] theorem firstGroup : (group p).first next text =
    p.first (fun groups rest => next (text.take (text.length - rest.length) :: groups) rest) text := by
  simp only [first, ways, List.findSome?_map]
  rfl

theorem firstMany : (many p).first next text =
    (p.first (fun groups mid => if mid.length < text.length
      then (many p).first (fun more => next (groups ++ more)) mid else none) text).or (next [] text) := by
  rw [first, ways, rounds, List.findSome?_append, findFlat]
  congr 1
  · congr 1
    funext way
    by_cases within : way.rest.length < text.length
    · simp only [within, if_true, List.findSome?_map, first, ways]
      rfl
    · simp only [within, if_false, List.findSome?_nil]
  · simp

theorem manyOneCons : (many (one accepts)).first next (c :: rest) =
    if accepts c then ((many (one accepts)).first next rest).or (next [] (c :: rest))
    else next [] (c :: rest) := by
  rw [firstMany, firstOne]
  split <;> simp

theorem manyOneNil : (many (one accepts)).first next [] = next [] [] := by
  rw [firstMany, firstOneNil, Option.none_or]

theorem takeFront (front behind : Text) :
    (front ++ behind).take ((front ++ behind).length - behind.length) = front := by simp

-- Failing on a rest, what follows fails with such a character in front of it as well.
def Persists (accepts : Char → Bool) (next : Text → Option α) : Prop :=
  ∀ c rest, accepts c = true → next rest = none → next (c :: rest) = none

theorem failsBefore {next : Text → Option α} (persists : Persists accepts next)
    (fails : next (text.dropWhile accepts) = none) : next text = none := by
  induction text with
  | nil => exact fails
  | cons c rest ih =>
    cases taken : accepts c with
    | false => rwa [List.dropWhile_cons_of_neg (by simp [taken])] at fails
    | true =>
      rw [List.dropWhile_cons_of_pos taken] at fails
      exact persists c rest taken (ih fails)

theorem manyOne (persists : Persists accepts (next [])) :
    (many (one accepts)).first next text = next [] (text.dropWhile accepts) := by
  induction text with
  | nil => exact manyOneNil
  | cons c rest ih =>
    rw [manyOneCons]
    cases taken : accepts c with
    | false => rw [List.dropWhile_cons_of_neg (by simp [taken]), if_neg Bool.false_ne_true]
    | true =>
      rw [List.dropWhile_cons_of_pos taken, if_pos rfl, ih]
      cases goes : next [] (rest.dropWhile accepts) with
      | none => rw [persists c rest taken (failsBefore persists goes), Option.none_or]
      | some result => rfl

theorem firstWord (word text : Text) (next : List Text → Text → Option α) :
    (Pattern.word word).first next text = (stripLead? word text).bind (next []) := by
  induction word generalizing text with
  | nil => simp [Pattern.word, stripLead?]
  | cons c more ih =>
    cases text with
    | nil => simp [Pattern.word, stripLead?]
    | cons d rest =>
      have same : Pattern.word (c :: more) = seq (one (· == c)) (Pattern.word more) := rfl
      rw [same, firstSeq, firstOne]
      by_cases starts : d = c
      · simp [starts, ih, stripLead?]
      · simp [starts, Ne.symm starts, stripLead?]

theorem findSpelled : (p.groups? text).isSome = true ↔ ∃ way ∈ p.ways text, way.rest = [] := by
  simp only [groups?, first, List.findSome?_isSome_iff, atEnd, Option.isSome_ite]

def Spells : Pattern → Text → Prop
  | empty, text => text = []
  | one accepts, text => ∃ c, accepts c = true ∧ text = [c]
  | seq p q, text => ∃ front behind, p.Spells front ∧ q.Spells behind ∧ text = front ++ behind
  | either p q, text => p.Spells text ∨ q.Spells text
  | many p, text => ∃ parts : List Text, (∀ part ∈ parts, p.Spells part ∧ part ≠ []) ∧ text = parts.flatten
  | group p, text => p.Spells text

theorem roundsSpell {body : Text → List Way} {spells : Text → Prop}
    (spell : ∀ text rest, (∃ way ∈ body text, way.rest = rest) ↔ ∃ taken, spells taken ∧ text = taken ++ rest)
    (text rest : Text) : (∃ way ∈ rounds body text, way.rest = rest) ↔
      ∃ parts : List Text, (∀ part ∈ parts, spells part ∧ part ≠ []) ∧ text = parts.flatten ++ rest := by
  induction text using rounds.induct with
  | case1 text ih =>
    rw [rounds]
    constructor
    · rintro ⟨way, member, rfl⟩
      rcases List.mem_append.1 member with further | last
      · obtain ⟨round, inside, later⟩ := List.mem_flatMap.1 further
        split at later
        · next within =>
          obtain ⟨last, tail, rfl⟩ := List.mem_map.1 later
          obtain ⟨taken, spelled, whole⟩ := (spell text round.rest).1 ⟨round, inside, rfl⟩
          obtain ⟨parts, each, same⟩ := (ih round within).1 ⟨last, tail, rfl⟩
          have some : taken ≠ [] := by
            rintro rfl
            rw [whole] at within
            exact absurd within (Nat.lt_irrefl _)
          refine ⟨taken :: parts, List.forall_mem_cons.2 ⟨⟨spelled, some⟩, each⟩, ?_⟩
          rw [whole, same, List.flatten_cons, List.append_assoc]
        · contradiction
      · obtain rfl := List.mem_singleton.1 last
        exact ⟨[], nofun, rfl⟩
    · rintro ⟨parts, each, whole⟩
      cases parts with
      | nil => exact ⟨_, List.mem_append_right _ (List.mem_singleton_self _), whole⟩
      | cons part more =>
        obtain ⟨⟨spelled, some⟩, others⟩ := List.forall_mem_cons.1 each
        rw [List.flatten_cons, List.append_assoc] at whole
        obtain ⟨round, inside, same⟩ := (spell text _).2 ⟨part, spelled, whole⟩
        have within : round.rest.length < text.length := by
          have filled := List.length_pos_of_ne_nil some
          simp only [same, whole, List.length_append]
          omega
        obtain ⟨way, tail, left⟩ := (ih round within).2 ⟨more, others, same⟩
        refine ⟨way.onto round.groups, List.mem_append_left _ (List.mem_flatMap.2 ⟨round, inside, ?_⟩), left⟩
        rw [if_pos within]
        exact List.mem_map_of_mem tail

theorem waySpells (p : Pattern) (text rest : Text) :
    (∃ way ∈ p.ways text, way.rest = rest) ↔ ∃ taken, p.Spells taken ∧ text = taken ++ rest := by
  induction p generalizing text rest with
  | empty => simp [ways, Spells]
  | one accepts =>
    cases text with
    | nil => simp [ways, Spells]
    | cons c more =>
      by_cases accepted : accepts c = true
      · simp [ways, Spells, accepted]
      · simp [ways, Spells, accepted]
  | seq p q ihP ihQ =>
    constructor
    · rintro ⟨way, member, rfl⟩
      obtain ⟨half, before, behind⟩ := List.mem_flatMap.1 member
      obtain ⟨last, after, rfl⟩ := List.mem_map.1 behind
      obtain ⟨front, spelled, whole⟩ := (ihP text half.rest).1 ⟨half, before, rfl⟩
      obtain ⟨back, also, split⟩ := (ihQ half.rest last.rest).1 ⟨last, after, rfl⟩
      exact ⟨front ++ back, ⟨front, back, spelled, also, rfl⟩, by rw [whole, split, List.append_assoc]; rfl⟩
    · rintro ⟨_, ⟨front, back, spelled, also, rfl⟩, whole⟩
      rw [List.append_assoc] at whole
      obtain ⟨half, before, same⟩ := (ihP text _).2 ⟨front, spelled, whole⟩
      obtain ⟨last, after, left⟩ := (ihQ half.rest rest).2 ⟨back, also, same⟩
      exact ⟨last.onto half.groups,
        List.mem_flatMap.2 ⟨half, before, List.mem_map_of_mem after⟩, left⟩
  | either p q ihP ihQ => simp only [ways, List.mem_append, or_and_right, exists_or, ihP, ihQ, Spells]
  | many p ih =>
    rw [ways, roundsSpell ih]
    constructor
    · rintro ⟨parts, each, whole⟩
      exact ⟨_, ⟨parts, each, rfl⟩, whole⟩
    · rintro ⟨_, ⟨parts, each, rfl⟩, whole⟩
      exact ⟨parts, each, whole⟩
  | group p ih => simpa [ways, Spells] using ih text rest

theorem groupsSpell : (p.groups? text).isSome = true ↔ p.Spells text := by
  rw [findSpelled, waySpells]
  simp

theorem wordSpells {word text : Text} : (Pattern.word word).Spells text ↔ text = word := by
  induction word generalizing text with
  | nil => exact Iff.rfl
  | cons c more ih =>
    have same : Pattern.word (c :: more) = seq (one (· == c)) (Pattern.word more) := rfl
    simp [same, Spells, ih]

theorem severalSpells {text : Text} :
    (several accepts).Spells text ↔ text ≠ [] ∧ ∀ c ∈ text, accepts c = true := by
  simp only [several, Spells]
  constructor
  · rintro ⟨_, _, ⟨c, accepted, rfl⟩, ⟨parts, each, rfl⟩, rfl⟩
    refine ⟨nofun, List.forall_mem_cons.2 ⟨accepted, fun d member => ?_⟩⟩
    obtain ⟨part, inside, found⟩ := List.mem_flatten.1 member
    obtain ⟨⟨e, also, rfl⟩, _⟩ := each part inside
    rwa [List.mem_singleton.1 found]
  · rintro ⟨some, each⟩
    obtain ⟨c, rest, rfl⟩ := List.exists_cons_of_ne_nil some
    obtain ⟨accepted, others⟩ := List.forall_mem_cons.1 each
    refine ⟨[c], rest, ⟨c, accepted, rfl⟩, ⟨rest.map fun d => [d], ?_, ?_⟩, rfl⟩
    · simpa using others
    · exact (List.flatMap_singleton' rest).symm

end
end Pattern
end PkgInfo.Text
