import Mathlib.Logic.Relation
import PkgInfo.Proofs.Document.Intake
import PkgInfo.Proofs.Header.Groups

/-! Changes to a document that reading does not notice. Of the headers, reading looks at all of a list
field of the declared version and at the first of any other field of it, in either case of letters, so
the order between fields, headers of other names and later ones of a single field come to nothing. -/
namespace PkgInfo
open Text Header

namespace Header

def seen (headers : List Header) (f : Field) : List Text :=
  if f.category.isList then valuesOf headers f.label else (valuesOf headers f.label).take 1

def SameFor (v : Version) (headers others : List Header) : Prop :=
  ∀ f ∈ v.fields, seen headers f = seen others f

section
variable {headers others : List Header} {f : Field}

theorem seenOfValues (same : valuesOf headers f.label = valuesOf others f.label) :
    seen headers f = seen others f := by
  rw [seen, seen, same]

theorem firstSeen (single : f.category.isList = false) :
    first? headers f.label = (seen headers f).head? := by
  simp [first?, seen, single, List.head?_take]

theorem suppliedSeen (same : seen headers f = seen others f) :
    supplied? headers f = supplied? others f := by
  cases list : f.category.isList with
  | true =>
    have values : valuesOf headers f.label = valuesOf others f.label := by
      simpa [seen, list] using same
    simp only [supplied?, values, list, if_true]
  | false =>
    simp only [supplied?, list, Bool.false_eq_true, if_false, firstSeen list, same]

end

theorem declaredSame {v : Version} {headers others : List Header} (same : SameFor v headers others) :
    declared headers = declared others := by
  have inside : Field.metadataVersion ∈ v.fields := by cases v <;> decide
  have first : first? headers Field.metadataVersion.label = first? others Field.metadataVersion.label := by
    rw [firstSeen rfl, firstSeen rfl, same _ inside]
  simp only [declared, first]

theorem suppliesSame {v : Version} {headers others : List Header} (same : SameFor v headers others) :
    supplies headers v = supplies others v := by
  refine List.filterMap_congr fun f member => ?_
  rw [suppliedSeen (same f (Record.suppliesInside member).1)]

def Group.Foreign (v : Version) (g : Group) : Prop := ∀ f ∈ v.fields, ¬ SameLetters g.name f.label

instance (v : Version) (g : Group) : Decidable (g.Foreign v) :=
  inferInstanceAs (Decidable (∀ f ∈ v.fields, ¬ SameLetters g.name f.label))

inductive Harmless (v : Version) : List Group → List Group → Prop
  | reordered {groups others : List Group} (moved : groups.Perm others)
      (kept : ∀ name, groups.filter (SameLetters ·.name name) =
        others.filter (SameLetters ·.name name)) : Harmless v groups others
  | recased {front back : List Group} {g : Group} {name : Text} (same : SameLetters g.name name) :
      Harmless v (front ++ g :: back) (front ++ g.recased same :: back)
  | added {front back : List Group} {g : Group} (foreign : g.Foreign v) :
      Harmless v (front ++ back) (front ++ g :: back)
  | removed {front back : List Group} {g : Group} (foreign : g.Foreign v) :
      Harmless v (front ++ g :: back) (front ++ back)
  | repeated {front back : List Group} {g h : Group} {f : Field} (single : f.category.isList = false)
      (first : h ∈ front) (named : SameLetters h.name f.label) (again : SameLetters g.name f.label) :
      Harmless v (front ++ back) (front ++ g :: back)

theorem Harmless.swapped {v : Version} {g h : Group} (apart : ¬ SameLetters g.name h.name)
    (front back : List Group) : Harmless v (front ++ g :: h :: back) (front ++ h :: g :: back) := by
  refine .reordered ((List.Perm.swap h g back).append_left front) fun name => ?_
  have either : ¬ (SameLetters g.name name ∧ SameLetters h.name name) := fun both =>
    apart (both.1.trans both.2.symm)
  by_cases here : SameLetters g.name name <;> by_cases there : SameLetters h.name name <;>
    simp_all

theorem valuesJoined (front back : List Group) (name : Text) :
    valuesOf ((front ++ back).map Group.header) name =
      valuesOf (front.map Group.header) name ++ valuesOf (back.map Group.header) name := by
  simp [valuesOf]

theorem valuesAround (front back : List Group) (g : Group) (name : Text) :
    valuesOf ((front ++ g :: back).map Group.header) name =
      valuesOf (front.map Group.header) name ++
        (if SameLetters g.name name then [g.header.value] else []) ++
          valuesOf (back.map Group.header) name := by
  cases same : decide (SameLetters g.name name) with
  | true => simp [valuesOf, Group.header, of_decide_eq_true same]
  | false => simp [valuesOf, Group.header, of_decide_eq_false same]

theorem valuesApart {g : Group} {name : Text} (apart : ¬ SameLetters g.name name)
    (front back : List Group) :
    valuesOf ((front ++ g :: back).map Group.header) name =
      valuesOf ((front ++ back).map Group.header) name := by
  rw [valuesAround, if_neg apart, List.append_nil, valuesJoined]

theorem seenLater {h : Group} {f : Field} (single : f.category.isList = false)
    (named : SameLetters h.name f.label) {front : List Group} (first : h ∈ front)
    (back : List Group) :
    seen ((front ++ back).map Group.header) f = seen (front.map Group.header) f := by
  have some : h.header.value ∈ valuesOf (front.map Group.header) f.label := by
    refine List.mem_map_of_mem (List.mem_filter.2 ⟨List.mem_map_of_mem first, ?_⟩)
    exact decide_eq_true named
  have filled : valuesOf (front.map Group.header) f.label ≠ [] := List.ne_nil_of_mem some
  simp only [seen, single, Bool.false_eq_true, if_false, valuesJoined]
  exact List.take_append_of_le_length (List.length_pos_iff.2 filled)

theorem harmlessSame {v : Version} {groups others : List Group} (step : Harmless v groups others) :
    SameFor v (groups.map Group.header) (others.map Group.header) := by
  intro f inside
  cases step with
  | reordered _ kept =>
    refine seenOfValues ?_
    have filtered : ∀ groups : List Group, valuesOf (groups.map Group.header) f.label =
        (groups.filter (SameLetters ·.name f.label)).map fun g => g.header.value := by
      intro groups
      rw [valuesOf, List.filter_map, List.map_map]
      rfl
    rw [filtered, filtered, kept]
  | @recased front back g name same =>
    have named : SameLetters (g.recased same).name f.label ↔ SameLetters g.name f.label :=
      ⟨same.trans, same.symm.trans⟩
    have value : (g.recased same).header.value = g.header.value := rfl
    exact seenOfValues (by simp only [valuesAround, named, value])
  | @added front back g foreign =>
    exact seenOfValues (valuesApart (foreign f inside) front back).symm
  | @removed front back g foreign =>
    exact seenOfValues (valuesApart (foreign f inside) front back)
  | @repeated front back g h named single first same again =>
    cases here : decide (named = f) with
    | true =>
      cases of_decide_eq_true here
      rw [seenLater single same first, seenLater single same first]
    | false =>
      have apart : ¬ SameLetters g.name f.label := fun both =>
        of_decide_eq_false here (Field.sameLettersLabel.1 (again.symm.trans both))
      exact seenOfValues (valuesApart apart front back).symm

theorem rearrangedSame {v : Version} {groups others : List Group}
    (run : Relation.ReflTransGen (Harmless v) groups others) :
    SameFor v (groups.map Group.header) (others.map Group.header) := by
  induction run with
  | refl => exact fun _ _ => rfl
  | tail _ step ih => exact fun f inside => (ih f inside).trans (harmlessSame step f inside)

end Header

namespace Record

theorem readIntoUnseen {input output : Bytes} {headers others : List Header} {v : Version}
    (given : block input = .ok headers) (left : block output = .ok others)
    (version : declared headers = .ok v) (same : SameFor v headers others) (r : Record) :
    r.readInto output = r.readInto input := by
  have kept : declared others = .ok v := declaredSame same ▸ version
  rw [readIntoSupplied given version, readIntoSupplied left kept, suppliesSame same]

/-- An accepted document whose lines are all ended is made of groups, and no change of its groups that
is harmless to the version it declares, with any other bytes behind the block, changes what it reads
as. -/
theorem readRearranged {input : Bytes} (accepted : (read input).failure = none)
    (ended : ∀ line ∈ rawLines input, line.getLast? = some 0x0A) :
    ∃ headers v, block input = .ok headers ∧ declared headers = .ok v ∧
      (∃ groups tail, Closing tail ∧ input = document groups tail) ∧
      ∀ groups tail, Closing tail → input = document groups tail →
        groups.map Group.header = headers ∧
        ∀ others, Relation.ReflTransGen (Harmless v) groups others →
          ∀ behind, Closing behind → read (document others behind) = read input := by
  obtain ⟨headers, v, given, version⟩ := readAccepted accepted
  refine ⟨headers, v, given, version, groupsOf given ended, fun groups tail closing same => ?_⟩
  have made : groups.map Group.header = headers := by
    rw [same, blockDocument groups closing] at given
    exact Except.ok.inj given
  refine ⟨made, fun others run behind closed => ?_⟩
  exact readIntoUnseen given (blockDocument others closed) version (made ▸ rearrangedSame run) empty

def bystanders : Bytes :=
  Utf8.encode
    "Metadata-Version: 1.1\nName: demo\nMaintainer: ann\nPlatform: a\nplatform: b\n\nbody\n".toList

def rearranged : Bytes :=
  Utf8.encode ("Name: demo\nMETADATA-VERSION: 1.1\nPlatform: a\nplatform: b\n".toList ++
    "Name: other\nRequires-Dist: x\n\r\n".toList) ++ [0xFF]

theorem readBystanders :
    (read bystanders).failure = none ∧
      (∀ line ∈ rawLines bystanders, line.getLast? = some 0x0A) ∧
        read rearranged = read bystanders := by
  have accepted : (read bystanders).failure = none := by decide +kernel
  have ended : ∀ line ∈ rawLines bystanders, line.getLast? = some 0x0A := by decide +kernel
  obtain ⟨headers, v, _, version, _, kept⟩ := readRearranged accepted ended
  let declaring := Group.ofField .metadataVersion "1.1".toList (by decide)
  let demo := Group.ofField .name "demo".toList (by decide)
  let foreign := Group.ofField .maintainer "ann".toList (by decide)
  let first := Group.ofField .platform "a".toList (by decide)
  let second := (Group.ofField .platform "b".toList (by decide)).recased
    (show SameLetters Field.platform.label "platform".toList by decide +kernel)
  let shouted := declaring.recased
    (show SameLetters Field.metadataVersion.label "METADATA-VERSION".toList by decide +kernel)
  let later := Group.ofField .name "other".toList (by decide)
  let dependency := Group.ofField .requiresDist "x".toList (by decide)
  have split : bystanders = document [declaring, demo, foreign, first, second]
      (0x0A :: Utf8.encode "body\n".toList) := by decide +kernel
  obtain ⟨made, same⟩ := kept _ _ (.feed _) split
  have declares : declared ([declaring, demo, foreign, first, second].map Group.header) = .ok .v11 := by
    decide +kernel
  rw [← made, declares] at version
  cases version
  have swapped : Harmless .v11 _ [demo, declaring, foreign, first, second] :=
    .swapped (by decide) [] [foreign, first, second]
  have recased : Harmless .v11 _ [demo, shouted, foreign, first, second] :=
    @Harmless.recased _ [demo] _ declaring _ _
  have removed : Harmless .v11 _ [demo, shouted, first, second] :=
    @Harmless.removed _ [demo, shouted] _ foreign (by decide)
  have repeated : Harmless .v11 _ [demo, shouted, first, second, later] :=
    @Harmless.repeated _ [demo, shouted, first, second] [] _ demo .name rfl (by simp) rfl rfl
  have added : Harmless .v11 _ [demo, shouted, first, second, later, dependency] :=
    @Harmless.added _ [demo, shouted, first, second, later] [] dependency (by decide)
  have left : rearranged = document [demo, shouted, first, second, later, dependency]
      [0x0D, 0x0A, 0xFF] := by decide +kernel
  refine ⟨accepted, ended, ?_⟩
  rw [left]
  have steps := ((Relation.ReflTransGen.single swapped).tail recased).tail removed
  exact same _ ((steps.tail repeated).tail added) _ (.returned _)

end Record
end PkgInfo
