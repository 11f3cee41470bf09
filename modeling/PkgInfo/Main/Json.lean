import PkgInfo.Command.Basic

/-! Fields as a JSON object over several lines, its keys in order. -/
namespace PkgInfo.Command

def jsonChar (c : Char) : Text :=
  if c = '\x22' ∨ c = '\\' then ['\\', c]
  else if c = '\x08' then "\\b".toList
  else if c = '\t' then "\\t".toList
  else if c = '\n' then "\\n".toList
  else if c = '\x0C' then "\\f".toList
  else if c = '\r' then "\\r".toList
  else if c.toNat < 0x20 then
    "\\u00".toList ++ [Nat.digitChar (c.toNat / 16), Nat.digitChar (c.toNat % 16)]
  else [c]

def jsonString (text : Text) : Text := '\x22' :: text.flatMap jsonChar ++ ['\x22']

def jsonBlock (opening closing : Char) (indent : Nat) (lines : List Text) : Text :=
  if lines = [] then [opening, closing]
  else
    let margin := '\n' :: List.replicate (indent + 2) ' '
    opening :: margin ++ Text.joined (',' :: margin) lines ++ '\n' :: List.replicate indent ' ' ++
      [closing]

def jsonValue : Value → Text
  | .text t => jsonString t
  | .list items => jsonBlock '[' ']' 2 (items.map jsonString)

def jsonObject (fields : Table Value) : Text :=
  jsonBlock '{' '}' 0 (fields.entries.map fun (name, value) =>
    jsonString name ++ ": ".toList ++ jsonValue value)

@[reducible] def json : JsonPrinter := ⟨jsonObject⟩

end PkgInfo.Command
