import PkgInfo.Text.Blank
import PkgInfo.Text.Dotted
import PkgInfo.Text.Number

/-! Normalized version numbers: a release of at least two runs of digits, and in this order whichever
there are of a pre-release, a post-release and a development suffix. Digits may be of any script. -/
namespace PkgInfo.Predicate

inductive Phase where
  | a | b | c | rc
  deriving DecidableEq, Repr

def Phase.spelling : Phase → Text
  | .a => ['a']
  | .b => ['b']
  | .c => ['c']
  | .rc => ['r', 'c']

structure Number where
  release : List Text
  preRelease : Option (Phase × List Text)
  post : Option Text
  dev : Option Text
  deriving DecidableEq, Repr

namespace Number

def splitRuns (text : Text) : List Text × Text :=
  if text.head?.any Text.isDecimal then
    let (front, behind) := Text.splitDotted Text.isDecimal Text.isDecimal text
    (Text.pieces '.' front, behind)
  else ([], text)

def splitPhase? : Text → Option (Phase × Text)
  | 'a' :: rest => some (.a, rest)
  | 'b' :: rest => some (.b, rest)
  | 'c' :: rest => some (.c, rest)
  | 'r' :: 'c' :: rest => some (.rc, rest)
  | _ => none

def splitPreRelease (text : Text) : Option (Phase × List Text) × Text :=
  match splitPhase? text with
  | some (phase, rest) =>
    match splitRuns rest with
    | ([], _) => (none, text)
    | (runs, behind) => (some (phase, runs), behind)
  | none => (none, text)

def splitSuffix (word : Text) (text : Text) : Option Text × Text :=
  match Text.stripLead? word text with
  | some rest =>
    match rest.takeWhile Text.isDecimal with
    | [] => (none, text)
    | digits => (some digits, rest.dropWhile Text.isDecimal)
  | none => (none, text)

def postWord : Text := ".post".toList

def devWord : Text := ".dev".toList

def ofText? (text : Text) : Option Number :=
  let (release, rest) := splitRuns (Text.trim text)
  let (preRelease, rest) := splitPreRelease rest
  let (post, rest) := splitSuffix postWord rest
  let (dev, rest) := splitSuffix devWord rest
  if 2 ≤ release.length ∧ rest = [] then some ⟨release, preRelease, post, dev⟩ else none

def runsText (runs : List Text) : Text := Text.joined ['.'] runs

def text (n : Number) : Text :=
  runsText n.release ++
    (n.preRelease.elim [] fun (phase, runs) => phase.spelling ++ runsText runs) ++
    (n.post.elim [] (postWord ++ ·)) ++
    (n.dev.elim [] (devWord ++ ·))

end Number
end PkgInfo.Predicate
