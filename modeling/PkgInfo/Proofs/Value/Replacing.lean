import PkgInfo.Proofs.Value.Folding

/-! Folding and unfolding as replacements: a line feed by a line feed with the bar behind it, and that
by a line feed alone. Unfolding takes back what folding does to any text. Folding takes back what unfolding
does to exactly the texts in which each line feed has the bar behind it. -/
namespace PkgInfo.Value
open Text

inductive Replaced (old new : Text) : Text → Text → Prop where
  | nil : Replaced old new [] []
  | found {text rest out : Text} (here : text = old ++ rest) (onward : Replaced old new rest out) :
      Replaced old new text (new ++ out)
  | kept {c : Char} {rest out : Text} (other : ¬ old <+: c :: rest)
      (onward : Replaced old new rest out) : Replaced old new (c :: rest) (c :: out)

theorem replacedUnique {old new text left right : Text} (some : old ≠ [])
    (one : Replaced old new text left) (other : Replaced old new text right) : left = right := by
  induction one generalizing right with
  | nil =>
    cases other with
    | nil => rfl
    | found here onward => exact absurd (List.append_eq_nil_iff.1 here.symm).1 some
  | @found text rest out here onward ih =>
    cases other with
    | nil => exact absurd (List.append_eq_nil_iff.1 here.symm).1 some
    | found here' onward' =>
      obtain rfl := List.append_cancel_left (here.symm.trans here')
      rw [ih onward']
    | kept apart onward' => exact absurd (here ▸ List.prefix_append old rest) apart
  | @kept c rest out apart onward ih =>
    cases other with
    | found here onward' => exact absurd (here ▸ List.prefix_append old _) apart
    | kept apart' onward' => rw [ih onward']

theorem foldReplaced (text : Text) : Replaced ['\n'] ('\n' :: bar) text (fold text) := by
  induction text with
  | nil => exact .nil
  | cons c rest ih =>
    rw [foldCons]
    split
    · next feed => exact .found (by rw [feed]; rfl) ih
    · next other => exact .kept (by simpa [List.cons_prefix_cons] using Ne.symm other) ih

theorem unfoldFeed (text : Text) : unfold ('\n' :: bar ++ text) = '\n' :: unfold text := by
  obtain ⟨first, others, cut⟩ := List.exists_cons_of_ne_nil (piecesNonempty '\n' text)
  have lines : pieces '\n' ('\n' :: bar ++ text) = [] :: (bar ++ first) :: others := by
    rw [List.cons_append, pieces, if_pos rfl, piecesLead barFree cut]
  simp only [unfold, lines, cut, List.map_cons, withoutBarBar, joined, List.nil_append,
    List.singleton_append]

theorem unfoldKept {c : Char} {rest : Text} (other : ¬ '\n' :: bar <+: c :: rest) :
    unfold (c :: rest) = c :: unfold rest := by
  obtain ⟨first, others, cut⟩ := List.exists_cons_of_ne_nil (piecesNonempty '\n' rest)
  by_cases feed : c = '\n'
  · subst feed
    have bare : withoutBar first = first := by
      have apart : ¬ bar <+: first := fun leads =>
        other (List.cons_prefix_cons.2 ⟨rfl, (leadPiece barFree cut).1 leads⟩)
      rw [withoutBar, stripLead?, if_neg (by rwa [List.isPrefixOf_iff_prefix]), Option.getD_none]
    simp only [unfold, pieces, if_true, cut, List.map_cons, bare, joined, List.nil_append,
      List.singleton_append]
  · simp only [unfold, pieces, feed, if_false, cut, extendFirst, joinedCons, List.cons_append]

-- A text is taken apart as unfolding reads it: a mark at a time where one starts, else a character.
theorem markInduction {P : Text → Prop} (nil : P [])
    (feed : ∀ rest, P rest → P ('\n' :: bar ++ rest))
    (kept : ∀ c rest, ¬ '\n' :: bar <+: c :: rest → P rest → P (c :: rest)) (text : Text) : P text := by
  by_cases leads : '\n' :: bar <+: text
  · obtain ⟨rest, whole⟩ := leads
    have shorter : rest.length < text.length := by
      rw [← whole, List.length_append, List.length_cons]
      omega
    exact whole ▸ feed rest (markInduction nil feed kept rest)
  · cases text with
    | nil => exact nil
    | cons c rest => exact kept c rest leads (markInduction nil feed kept rest)
termination_by text.length

theorem unfoldReplaced (text : Text) : Replaced ('\n' :: bar) ['\n'] text (unfold text) := by
  induction text using markInduction with
  | nil => exact .nil
  | feed rest ih =>
    rw [unfoldFeed]
    exact .found rfl ih
  | kept c rest other ih =>
    rw [unfoldKept other]
    exact .kept other ih

def EachBarred (text : Text) : Prop := ∀ front behind, text = front ++ '\n' :: behind → bar <+: behind

theorem eachBarredCons {c : Char} {rest : Text} :
    EachBarred (c :: rest) ↔ (c = '\n' → bar <+: rest) ∧ EachBarred rest := by
  constructor
  · intro each
    refine ⟨fun feed => each [] rest (by rw [feed]; rfl), fun front behind same => ?_⟩
    exact each (c :: front) behind (by rw [same]; rfl)
  · rintro ⟨first, later⟩ (_ | ⟨d, front⟩) behind same
    · cases same
      exact first rfl
    · cases same
      exact later front behind rfl

theorem eachBarredAppend {lead rest : Text} (free : '\n' ∉ lead) :
    EachBarred (lead ++ rest) ↔ EachBarred rest := by
  induction lead with
  | nil => exact Iff.rfl
  | cons c more ih =>
    simp only [List.mem_cons, not_or] at free
    rw [List.cons_append, eachBarredCons, ih free.2]
    exact and_iff_right fun feed => absurd feed.symm free.1

theorem foldEachBarred (text : Text) : EachBarred (fold text) := by
  induction text with
  | nil => exact fun front behind same => by simp [fold, pieces, joined] at same
  | cons c rest ih =>
    rw [foldCons]
    split
    · refine eachBarredCons.2 ⟨fun _ => List.prefix_append bar _, ?_⟩
      exact (eachBarredAppend barFree).2 ih
    · next other => exact eachBarredCons.2 ⟨fun feed => absurd feed other, ih⟩

theorem foldUnfold {text : Text} (each : EachBarred text) : fold (unfold text) = text := by
  induction text using markInduction with
  | nil => rfl
  | feed rest ih =>
    have later : EachBarred rest := (eachBarredAppend barFree).1 (eachBarredCons.1 each).2
    rw [unfoldFeed, foldCons, if_pos rfl, ih later]
  | kept c rest other ih =>
    obtain ⟨first, later⟩ := eachBarredCons.1 each
    have plain : c ≠ '\n' := fun feed => other (List.cons_prefix_cons.2 ⟨feed.symm, first feed⟩)
    rw [unfoldKept other, foldCons, if_neg plain, ih later]
    rfl

/-- Folding and unfolding are the replacements of the two parts by each other. Unfolding gives back every
text that was folded, whatever marks it held before, and folding gives back an unfolded text exactly if
seven spaces and a bar stand behind each of its line feeds. -/
theorem foldingReversed :
    (∀ text out, Replaced ['\n'] ('\n' :: bar) text out ↔ out = fold text) ∧
    (∀ text out, Replaced ('\n' :: bar) ['\n'] text out ↔ out = unfold text) ∧
    (∀ text, unfold (fold text) = text) ∧
    ∀ text, fold (unfold text) = text ↔ ∀ front behind, text = front ++ '\n' :: behind →
      List.replicate 7 ' ' ++ ['|'] <+: behind := by
  refine ⟨fun text out => ⟨fun replaced => ?_, ?_⟩, fun text out => ⟨fun replaced => ?_, ?_⟩,
    unfoldFold, fun text => ⟨fun same => ?_, foldUnfold⟩⟩
  · exact replacedUnique (List.cons_ne_nil _ _) replaced (foldReplaced text)
  · rintro rfl
    exact foldReplaced text
  · exact replacedUnique (List.cons_ne_nil _ _) replaced (unfoldReplaced text)
  · rintro rfl
    exact unfoldReplaced text
  · have each := foldEachBarred (unfold text)
    rwa [same] at each

-- Taking a mark away can bring another together, so unfolding twice takes off more than once.
example :
    unfold "a\n       |       |b".toList = "a\n       |b".toList ∧
      unfold "a\n       |b".toList = "a\nb".toList := by decide

end PkgInfo.Value
