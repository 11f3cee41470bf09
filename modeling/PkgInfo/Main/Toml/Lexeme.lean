import PkgInfo.Text.Basic

/-! The small parts of a TOML document: blanks and line ends, keys, and the four kinds of strings.
Each reader takes its part off the front of a text and gives what is left. -/
namespace PkgInfo.Settings

abbrev Reading (α : Type) := Option (α × Text)

def isSpace (c : Char) : Bool := c == ' ' || c == '\t'

def skipSpaces (text : Text) : Text := text.dropWhile isSpace

def isPrinted (c : Char) : Bool := (c == '\t' || 0x20 ≤ c.toNat) && c.toNat != 0x7F

def newline? : Text → Option Text
  | '\n' :: rest => some rest
  | '\r' :: '\n' :: rest => some rest
  | _ => none

def endOfLine? (text : Text) : Option Text :=
  let rest := match skipSpaces text with
    | '#' :: comment => comment.dropWhile isPrinted
    | other => other
  match rest with
  | [] => some []
  | _ => newline? rest

def hexValue? (c : Char) : Option Nat :=
  if '0' ≤ c ∧ c ≤ '9' then some (c.toNat - '0'.toNat)
  else if 'a' ≤ c ∧ c ≤ 'f' then some (c.toNat - 'a'.toNat + 10)
  else if 'A' ≤ c ∧ c ≤ 'F' then some (c.toNat - 'A'.toNat + 10)
  else none

def scalar? (digits : Text) : Option Char :=
  (digits.mapM hexValue?).bind fun values =>
    let n := values.foldl (fun sum value => sum * 16 + value) 0
    if n.isValidChar then some (Char.ofNat n) else none

def escaped? : Char → Option Char
  | 'b' => some '\x08'
  | 't' => some '\t'
  | 'n' => some '\n'
  | 'f' => some '\x0C'
  | 'r' => some '\r'
  | '"' => some '"'
  | '\\' => some '\\'
  | _ => none

def push (c : Char) (reading : Reading Text) : Reading Text :=
  reading.map fun (text, rest) => (c :: text, rest)

def push? (c : Option Char) (reading : Reading Text) : Reading Text :=
  c.bind fun c => push c reading

def basicLine : Text → Reading Text
  | '"' :: rest => some ([], rest)
  | '\\' :: 'u' :: a :: b :: c :: d :: rest => push? (scalar? [a, b, c, d]) (basicLine rest)
  | '\\' :: 'U' :: a :: b :: c :: d :: e :: f :: g :: h :: rest =>
    push? (scalar? [a, b, c, d, e, f, g, h]) (basicLine rest)
  | '\\' :: e :: rest => push? (escaped? e) (basicLine rest)
  | c :: rest => if isPrinted c then push c (basicLine rest) else none
  | [] => none

def literalLine (text : Text) : Reading Text :=
  match text.span fun c => isPrinted c && c != '\x27' with
  | (inner, '\x27' :: rest) => some (inner, rest)
  | _ => none

def endsLine (text : Text) : Bool := (newline? (skipSpaces text)).isSome

-- Of up to five marks in a row the last three close the block. `skipping` says that a backslash
-- ended a line and nothing but blanks came since.
def basicBlock (skipping : Bool) : Text → Reading Text
  | '"' :: '"' :: '"' :: '"' :: '"' :: rest => some (['"', '"'], rest)
  | '"' :: '"' :: '"' :: '"' :: rest => some (['"'], rest)
  | '"' :: '"' :: '"' :: rest => some ([], rest)
  | '\r' :: '\n' :: rest =>
    if skipping then basicBlock true rest else push '\n' (basicBlock false rest)
  | '\n' :: rest => if skipping then basicBlock true rest else push '\n' (basicBlock false rest)
  | '\\' :: 'u' :: a :: b :: c :: d :: rest =>
    push? (scalar? [a, b, c, d]) (basicBlock false rest)
  | '\\' :: 'U' :: a :: b :: c :: d :: e :: f :: g :: h :: rest =>
    push? (scalar? [a, b, c, d, e, f, g, h]) (basicBlock false rest)
  | '\\' :: e :: rest =>
    if endsLine (e :: rest) then
      if e = '\r' then basicBlock true (e :: rest) else basicBlock true rest
    else push? (escaped? e) (basicBlock false rest)
  | c :: rest =>
    if skipping && isSpace c then basicBlock true rest
    else if isPrinted c then push c (basicBlock false rest)
    else none
  | [] => none

def literalBlock : Text → Reading Text
  | '\x27' :: '\x27' :: '\x27' :: '\x27' :: '\x27' :: rest => some (['\x27', '\x27'], rest)
  | '\x27' :: '\x27' :: '\x27' :: '\x27' :: rest => some (['\x27'], rest)
  | '\x27' :: '\x27' :: '\x27' :: rest => some ([], rest)
  | '\r' :: '\n' :: rest => push '\n' (literalBlock rest)
  | '\n' :: rest => push '\n' (literalBlock rest)
  | c :: rest => if isPrinted c then push c (literalBlock rest) else none
  | [] => none

def withoutNewline (text : Text) : Text := (newline? text).getD text

def string? : Text → Reading Text
  | '"' :: '"' :: '"' :: rest => basicBlock false (withoutNewline rest)
  | '"' :: rest => basicLine rest
  | '\x27' :: '\x27' :: '\x27' :: rest => literalBlock (withoutNewline rest)
  | '\x27' :: rest => literalLine rest
  | _ => none

def isBareKeyChar (c : Char) : Bool := c.isAlphanum || c == '-' || c == '_'

def key? : Text → Reading Text
  | '"' :: rest => basicLine rest
  | '\x27' :: rest => literalLine rest
  | text =>
    match text.span isBareKeyChar with
    | ([], _) => none
    | word => some word

end PkgInfo.Settings
