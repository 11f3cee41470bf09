import PkgInfo.Text.GraphemeBase

/-! Texts and characters as messages show them: between marks, with every character that would not
be seen as itself written by an escape. -/
namespace PkgInfo.Text

def isPlain (c : Char) : Bool := c == ' ' || (isGraphemeBase c && !isBlank c)

def codeEscape (c : Char) : Text := "\\u".toList ++ '{' :: Nat.toDigits 16 c.toNat ++ ['}']

def shown (mark c : Char) : Text :=
  if c = '\x00' then "\\0".toList
  else if c = '\t' then "\\t".toList
  else if c = '\r' then "\\r".toList
  else if c = '\n' then "\\n".toList
  else if c = '\\' ∨ c = mark then ['\\', c]
  else if isPlain c then [c]
  else codeEscape c

def quoted (text : Text) : Text := '\x22' :: text.flatMap (shown '\x22') ++ ['\x22']

def quotedChar (c : Char) : Text := '\x27' :: shown '\x27' c ++ ['\x27']

end PkgInfo.Text
