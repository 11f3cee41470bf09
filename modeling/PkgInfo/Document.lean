import PkgInfo.Record.Reading

/-! PKG-INFO documents: records written as header blocks and read back. Every value is folded when it
is written, so it stays within its header whatever it holds, and unfolded when it is read. -/
namespace PkgInfo

def documentName : Text := "PKG-INFO".toList

namespace Header

def decoded (f : Field) (value : Text) : Text :=
  if f = .description then value else Value.unfold value

def supplied? (headers : List Header) (f : Field) : Option Value :=
  if f.category.isList then
    match (valuesOf headers f.label).map (decoded f) with
    | [] => none
    | values =>
      some (if f.category = .elementList then .text (Text.joined [','] values) else .list values)
  else
    match first? headers f.label with
    | none => none
    | some value => if value = Value.unknown then none else some (.text (decoded f value))

def declared (headers : List Header) : Except Error Version :=
  match first? headers Field.metadataVersion.label with
  | none => .error (.malformed ⟨1, .noVersion⟩)
  | some text =>
    match Version.ofText? text with
    | some version => .ok version
    | none => .error (.unrecognizedVersion (Text.trim text))

def supplies (headers : List Header) (version : Version) : List (Text × Value) :=
  (version.fields.filter (· ≠ .metadataVersion)).filterMap fun f =>
    (supplied? headers f).map fun value => (f.label, value)

def line (h : Header) : Text := h.name ++ ": ".toList ++ Value.fold h.value ++ ['\n']

end Header

namespace Record

def readInto (r : Record) (input : Bytes) : Edit :=
  match Header.block input with
  | .error cause => ⟨r, some (.malformed cause), []⟩
  | .ok headers =>
    match Header.declared headers with
    | .error cause => ⟨r, some cause, []⟩
    | .ok version => r.update (Header.supplies headers version)

def read (input : Bytes) : Edit := empty.readInto input

def isWritten (r : Record) (f : Field) : Bool :=
  f ≠ .metadataVersion && (f ≠ .downloadUrl || r.contains f.label)

def headersOf (f : Field) : Value → List Header
  | .text t => [⟨f.label, t⟩]
  | .list items =>
    if f.category = .elementList then
      if items = [] then [] else [⟨f.label, Text.joined [','] items⟩]
    else items.map fun item => ⟨f.label, item⟩

variable [Host]

def headers (r : Record) : Logged Warning (List Header) := do
  let groups ← Logged.each (fun f => do let value ← r.get f.label; pure (headersOf f value))
    (r.keys.filter r.isWritten)
  pure (⟨Field.metadataVersion.label, r.version.text⟩ :: groups.flatten)

def render (r : Record) : Logged Warning Text := do
  let headers ← r.headers
  pure (headers.flatMap Header.line)

end Record
end PkgInfo
