import PkgInfo.Text.Basic

/-! Words joined by dots, cut off the front of a text. -/
namespace PkgInfo.Text

def splitDotted (isPart isStart : Char → Bool) : Text → Text × Text
  | [] => ([], [])
  | c :: rest =>
    if isPart c || (c == '.' && rest.head?.any isStart) then
      let (front, behind) := splitDotted isPart isStart rest
      (c :: front, behind)
    else ([], c :: rest)

theorem splitDottedAppend (isPart isStart : Char → Bool) (text : Text) :
    (splitDotted isPart isStart text).1 ++ (splitDotted isPart isStart text).2 = text := by
  induction text with
  | nil => rfl
  | cons c rest ih =>
    simp only [splitDotted]
    split
    · simpa using ih
    · rfl

theorem lengthSplitDotted {isPart isStart : Char → Bool} {c : Char} {rest : Text}
    (part : isPart c) : (splitDotted isPart isStart (c :: rest)).2.length ≤ rest.length := by
  have whole := congrArg List.length (splitDottedAppend isPart isStart rest)
  simp only [List.length_append] at whole
  simp only [splitDotted, part, Bool.true_or, if_true]
  omega

end PkgInfo.Text
