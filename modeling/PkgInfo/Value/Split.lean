import PkgInfo.Text.Blank

/-! Taking values apart: a value and the marker behind it, and lists written with commas. -/
namespace PkgInfo.Value

def splitMarker (text : Text) : Text × Option Text :=
  match Text.splitOnce ';' text with
  | some (value, marker) => (Text.trim value, some (Text.trim marker))
  | none => (text, none)

def tidy (pieces : List Text) : List Text := (pieces.map Text.trim).filter (· ≠ [])

def splitCommas (text : Text) : List Text := tidy (Text.pieces ',' text)

def depthAfter (depth : Nat) (c : Char) : Nat :=
  if c = '(' then depth + 1 else if c = ')' then depth - 1 else depth

def topLevelPieces (depth : Nat) : Text → List Text
  | [] => [[]]
  | c :: rest =>
    if c = ',' ∧ depth = 0 then [] :: topLevelPieces 0 rest
    else Text.extendFirst c (topLevelPieces (depthAfter depth c) rest)

def splitTopLevelCommas (text : Text) : List Text := tidy (topLevelPieces 0 text)

end PkgInfo.Value
