import PkgInfo.Header.Basic
import PkgInfo.Text.Blank
import PkgInfo.Text.Quoted
import PkgInfo.Text.Utf8

/-! The header block: a header a line, up to the first empty line or the end. A line that starts with
a space or tab goes on with the header above it, exactly as it is written. Each line is read as UTF-8
on its own, so nothing behind the block is looked at. -/
namespace PkgInfo.Header

inductive Fault where
  | badUtf8 (cause : Utf8.Fault)
  | orphan
  | noColon (line : Text)
  | emptyName
  | noVersion
  deriving DecidableEq, Repr

def Fault.message : Fault → Text
  | badUtf8 (.invalid length index) =>
    "invalid UTF-8: invalid utf-8 sequence of ".toList ++ (Nat.repr length).toList ++
      " bytes from index ".toList ++ (Nat.repr index).toList
  | badUtf8 (.incomplete index) =>
    "invalid UTF-8: incomplete utf-8 byte sequence from index ".toList ++ (Nat.repr index).toList
  | orphan => "continuation line before any header".toList
  | noColon line => "expected 'Name: value', got ".toList ++ Text.quoted line
  | emptyName => "empty header name".toList
  | noVersion => "missing Metadata-Version header".toList

structure Malformed where
  line : Nat
  fault : Fault
  deriving DecidableEq, Repr

inductive Line where
  | empty
  | continuation (text : Text)
  | header (h : Header)
  deriving DecidableEq, Repr

def withoutEnd (line : Text) : Text := Text.dropLastIf '\r' (Text.dropLastIf '\n' line)

def Line.ofText (line : Text) : Except Fault Line :=
  match line with
  | [] => .ok .empty
  | c :: _ =>
    if c = ' ' ∨ c = '\t' then .ok (.continuation line)
    else match Text.splitOnce ':' line with
      | none => .error (.noColon line)
      | some (front, behind) =>
        let name := Text.trimEnd front
        if name = [] then .error .emptyName
        else .ok (.header ⟨name, (Text.stripLead? [' '] behind).getD behind⟩)

def Line.ofBytes (line : Bytes) : Except Fault Line :=
  match Utf8.decode line with
  | .error cause => .error (.badUtf8 cause)
  | .ok text => Line.ofText (withoutEnd text)

def extendLine (b : UInt8) : List Bytes → List Bytes
  | [] => [[b]]
  | line :: others => (b :: line) :: others

def rawLines : Bytes → List Bytes
  | [] => []
  | b :: rest => if b = 0x0A then [b] :: rawLines rest else extendLine b (rawLines rest)

structure Section where
  more : Text
  headers : List Header
  deriving DecidableEq, Repr

def Section.goOn (line : Text) (s : Section) : Section := {s with more := '\n' :: line ++ s.more}

def Section.headedBy (h : Header) (s : Section) : Section :=
  ⟨[], {h with value := h.value ++ s.more} :: s.headers⟩

def sectionFrom (number : Nat) (below : Bool) : List Bytes → Except Malformed Section
  | [] => .ok ⟨[], []⟩
  | line :: rest =>
    match Line.ofBytes line with
    | .error fault => .error ⟨number, fault⟩
    | .ok .empty => .ok ⟨[], []⟩
    | .ok (.continuation text) =>
      if below then (sectionFrom (number + 1) true rest).map (·.goOn text)
      else .error ⟨number, .orphan⟩
    | .ok (.header h) => (sectionFrom (number + 1) true rest).map (·.headedBy h)

def block (input : Bytes) : Except Malformed (List Header) :=
  (sectionFrom 1 false (rawLines input)).map Section.headers

end PkgInfo.Header
