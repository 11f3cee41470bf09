import Mathlib.Data.List.DropRight
import PkgInfo.Text.Blank

/-! What trimming takes off. A text is the blanks in front of it, what trimming leaves, and the blanks
behind that; what is left has no blank at either end. -/
namespace PkgInfo.Text

theorem trimEndDrops (text : Text) : trimEnd text = text.rdropWhile isBlank := rfl

theorem trimPrefix (text : Text) : trim text <+: trimStart text :=
  List.rdropWhile_prefix isBlank (trimStart text)

theorem trimSublist (text : Text) : (trim text).Sublist text :=
  (trimPrefix text).sublist.trans (List.dropWhile_sublist isBlank)

theorem trimStartHead {text rest : Text} {c : Char} (starts : trimStart text = c :: rest) :
    isBlank c = false := by
  unfold trimStart at starts
  have some : text.dropWhile isBlank ≠ [] := by simp [starts]
  simpa [starts] using List.head_dropWhile_not isBlank some

theorem spanStops {p : Char → Bool} {text : Text} (stops : ∀ c ∈ text.head?, p c = false) :
    text.takeWhile p = [] ∧ text.dropWhile p = text := by
  cases text with
  | nil => exact ⟨rfl, rfl⟩
  | cons c rest => simp [stops c rfl]

theorem startSuffix (text : Text) : trimStart text <:+ text := List.dropWhile_suffix isBlank

theorem startTwice (text : Text) : trimStart (trimStart text) = trimStart text :=
  List.dropWhile_idempotent isBlank text

theorem startSolid {c : Char} (solid : isBlank c = false) (rest : Text) :
    trimStart (c :: rest) = c :: rest :=
  List.dropWhile_cons_of_neg (by simp [solid])

theorem trimTwice (text : Text) : trim (trim text) = trim text := by
  have front : trimStart (trim text) = trim text := by
    obtain ⟨behind, whole⟩ := trimPrefix text
    cases left : trim text with
    | nil => rfl
    | cons c rest =>
      have starts : trimStart text = c :: (rest ++ behind) := by rw [← whole, left]; rfl
      exact startSolid (trimStartHead starts) rest
  have behind : trimEnd (trim text) = trim text := List.rdropWhile_idempotent isBlank (trimStart text)
  rw [trim, front, behind]

theorem blankEnd {text : Text} : trimEnd text = [] ↔ ∀ c ∈ text, isBlank c = true := by
  rw [trimEndDrops, List.rdropWhile_eq_nil_iff]

theorem blankStart {text : Text} : trimStart text = [] ↔ ∀ c ∈ text, isBlank c = true :=
  List.dropWhile_eq_nil_iff

theorem trimEndBlanks {name blanks : Text} (ends : ∃ c, name.getLast? = some c ∧ isBlank c = false)
    (blank : ∀ c ∈ blanks, isBlank c = true) : trimEnd (name ++ blanks) = name := by
  obtain ⟨c, last, solid⟩ := ends
  obtain ⟨front, rfl⟩ := List.getLast?_eq_some_iff.1 last
  have drops : ∀ c ∈ blanks.reverse, isBlank c = true := by simpa using blank
  rw [trimEnd, List.reverse_append, List.dropWhile_append_of_pos drops]
  simp [solid]

theorem trimHead (text : Text) : ∀ c ∈ (trim text).head?, isBlank c = false := by
  intro c first
  obtain ⟨rest, same⟩ := List.head?_eq_some_iff.1 first
  obtain ⟨behind, whole⟩ := trimPrefix text
  rw [same] at whole
  exact trimStartHead whole.symm

theorem trimLast (text : Text) : ∀ c ∈ (trim text).getLast?, isBlank c = false := by
  intro c last
  obtain ⟨front, same⟩ := List.getLast?_eq_some_iff.1 last
  have some : trim text ≠ [] := by simp [same]
  have ends : ¬ isBlank ((trim text).getLast some) = true :=
    List.rdropWhile_last_not isBlank (trimStart text) some
  simpa [same] using ends

theorem trimWhole {text : Text} (first : ∀ c ∈ text.head?, isBlank c = false)
    (last : ∀ c ∈ text.getLast?, isBlank c = false) : trim text = text := by
  have starts : trimStart text = text := (spanStops first).2
  rw [trim, starts, trimEndDrops, List.rdropWhile_eq_self_iff]
  intro some
  simp [last _ (List.getLast?_eq_some_getLast some)]

theorem trimSolid {text : Text} (solid : ∀ c ∈ text, isBlank c = false) : trim text = text :=
  trimWhole (fun c first => solid c (List.mem_of_mem_head? first))
    fun c last => solid c (List.mem_of_mem_getLast? last)

theorem trimFront {blanks : Text} (blank : ∀ c ∈ blanks, isBlank c = true) (text : Text) :
    trim (blanks ++ text) = trim text := by
  rw [trim, trimStart, List.dropWhile_append_of_pos blank]
  rfl

theorem trimBehind {blanks : Text} (blank : ∀ c ∈ blanks, isBlank c = true) (text : Text) :
    trim (text ++ blanks) = trim text := by
  have drops : ∀ c ∈ blanks.reverse, isBlank c = true := by simpa using blank
  have behind (front : Text) : trimEnd (front ++ blanks) = trimEnd front := by
    rw [trimEnd, List.reverse_append, List.dropWhile_append_of_pos drops]
    rfl
  simp only [trim, trimStart, List.dropWhile_append]
  split
  · next nothing =>
    rw [List.dropWhile_eq_nil_iff.2 blank, List.isEmpty_iff.1 nothing]
  · exact behind _

theorem trimCons {c : Char} (solid : isBlank c = false) (rest : Text) :
    ∃ kept, trim (c :: rest) = c :: kept ∧ kept <+: rest := by
  have starts := startSolid solid rest
  have front := trimPrefix (c :: rest)
  rw [starts] at front
  cases left : trim (c :: rest) with
  | nil =>
    rw [trim, starts, blankEnd] at left
    rw [left c List.mem_cons_self] at solid
    contradiction
  | cons d kept =>
    rw [left, List.cons_prefix_cons] at front
    exact ⟨kept, by rw [front.1], front.2⟩

theorem startSplit (text : Text) : ∃ gap, (∀ c ∈ gap, isBlank c = true) ∧ text = gap ++ trimStart text :=
  ⟨text.takeWhile isBlank, fun _ member => List.mem_takeWhile_imp member,
    List.takeWhile_append_dropWhile.symm⟩

theorem trimParts (text : Text) : ∃ front behind, (∀ c ∈ front, isBlank c = true) ∧
    (∀ c ∈ behind, isBlank c = true) ∧ text = front ++ trim text ++ behind := by
  obtain ⟨front, blank, whole⟩ := startSplit text
  refine ⟨front, (trimStart text).rtakeWhile isBlank, blank,
    fun _ member => List.mem_rtakeWhile_imp member, ?_⟩
  rw [List.append_assoc, trim, trimEndDrops, List.rdropWhile_append_rtakeWhile]
  exact whole

theorem trimNothing {text : Text} (nothing : trim text = []) : ∀ c ∈ text, isBlank c = true := by
  obtain ⟨front, behind, before, after, whole⟩ := trimParts text
  rw [whole, nothing, List.append_nil]
  exact List.forall_mem_append.2 ⟨before, after⟩

theorem trimAppendHead {text : Text} (some : trim text ≠ []) (rest : Text) :
    (trim (text ++ rest)).head? = (trim text).head? := by
  obtain ⟨front, behind, before, after, whole⟩ := trimParts text
  obtain ⟨c, kept, same⟩ := List.exists_cons_of_ne_nil some
  have solid : isBlank c = false := trimHead text c (by rw [same]; rfl)
  obtain ⟨more, left, _⟩ := trimCons solid (kept ++ behind ++ rest)
  have parts : text ++ rest = front ++ (c :: (kept ++ behind ++ rest)) := by
    conv_lhs => rw [whole, same]
    simp only [List.append_assoc, List.cons_append]
  rw [parts, trimFront before, left, same]
  rfl

end PkgInfo.Text
