import PkgInfo.Document
import PkgInfo.Storage

/-! Documents in files. -/
namespace PkgInfo.Record
variable {m : Type → Type} [Monad m] [Storage m] [Host]

def ofFile (path : Text) : m Edit := do
  match ← Storage.read path with
  | .error fault => pure ⟨empty, some (.storage fault), []⟩
  | .ok bytes => pure (read bytes)

def toFile (r : Record) (path : Text) : m (Logged Warning (Except FileFault Unit)) := do
  let text := r.render
  let outcome ← Storage.write path (Utf8.encode text.value)
  pure ⟨outcome, text.log⟩

def toFolder (r : Record) (folder : Text) : m (Logged Warning (Except FileFault Text)) := do
  match ← Storage.makeFolders folder with
  | .error fault => pure ⟨.error fault, []⟩
  | .ok () =>
    let path := pathWithin folder documentName
    let outcome ← r.toFile path
    pure ⟨outcome.value.map fun _ => path, outcome.log⟩

end PkgInfo.Record
