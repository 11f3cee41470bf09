import PkgInfo.Main.Toml.Lexeme

/-! TOML documents as far as settings can use them: tables, dotted keys, inline tables, strings and
booleans. A value of any other kind fits no setting, so it is refused where it starts. -/
namespace PkgInfo.Settings

inductive Item where
  | string (text : Text)
  | boolean (value : Bool)
  | table (entries : List (List Text × Text))
  deriving DecidableEq, Repr

inductive Statement where
  | header (key : List Text)
  | assign (key : List Text) (item : Item)
  deriving DecidableEq, Repr

def path? (bound : Nat) (text : Text) : Reading (List Text) :=
  match bound with
  | 0 => none
  | bound + 1 =>
    match key? (skipSpaces text) with
    | none => none
    | some (key, rest) =>
      match skipSpaces rest with
      | '.' :: more => (path? bound more).map fun (others, rest) => (key :: others, rest)
      | other => some ([key], other)

-- Each part takes a character, so a text has no more of them than characters.
def keyPath? (text : Text) : Reading (List Text) := path? text.length text

def assigned? (text : Text) : Reading (List Text) :=
  match keyPath? text with
  | some (key, '=' :: rest) => some (key, skipSpaces rest)
  | _ => none

def entries? (bound : Nat) (text : Text) : Reading (List (List Text × Text)) :=
  match bound with
  | 0 => none
  | bound + 1 =>
    match assigned? text with
    | none => none
    | some (key, rest) =>
      match string? rest with
      | none => none
      | some (value, rest) =>
        match skipSpaces rest with
        | ',' :: more => (entries? bound more).map fun (others, rest) => ((key, value) :: others, rest)
        | '}' :: rest => some ([(key, value)], rest)
        | _ => none

def inlineTable? (text : Text) : Reading (List (List Text × Text)) :=
  match skipSpaces text with
  | '}' :: rest => some ([], rest)
  | _ => entries? text.length text

def item? (text : Text) : Reading Item :=
  match text with
  | '{' :: rest => (inlineTable? rest).map fun (entries, rest) => (.table entries, rest)
  | 't' :: 'r' :: 'u' :: 'e' :: rest => some (.boolean true, rest)
  | 'f' :: 'a' :: 'l' :: 's' :: 'e' :: rest => some (.boolean false, rest)
  | _ => (string? text).map fun (value, rest) => (.string value, rest)

def header? (text : Text) : Reading Statement :=
  match keyPath? text with
  | some (key, ']' :: rest) => (endOfLine? rest).map fun rest => (.header key, rest)
  | _ => none

def assignment? (text : Text) : Reading Statement :=
  match assigned? text with
  | none => none
  | some (key, rest) =>
    match item? rest with
    | none => none
    | some (item, rest) => (endOfLine? rest).map fun rest => (.assign key item, rest)

def statementsIn? (bound : Nat) (text : Text) : Option (List Statement) :=
  match bound, skipSpaces text with
  | _, [] => some []
  | 0, _ => none
  | bound + 1, '[' :: rest =>
    (header? rest).bind fun (s, rest) => (statementsIn? bound rest).map (s :: ·)
  | bound + 1, '#' :: rest => (endOfLine? ('#' :: rest)).bind (statementsIn? bound)
  | bound + 1, c :: rest =>
    match newline? (c :: rest) with
    | some rest => statementsIn? bound rest
    | none => (assignment? (c :: rest)).bind fun (s, rest) => (statementsIn? bound rest).map (s :: ·)

def byteOrderMark : Text := ['\uFEFF']

def statements? (text : Text) : Option (List Statement) :=
  let body := (Text.stripLead? byteOrderMark text).getD text
  statementsIn? body.length body

end PkgInfo.Settings
