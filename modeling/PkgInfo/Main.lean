import PkgInfo.Command.Run

/-! The program: the command line, files and the two output streams around `Command.run`. -/
open PkgInfo

def faultOfSystem (e : IO.Error) : FileFault :=
  match e with
  | .noFileOrDirectory .. => .notFound
  | .alreadyExists .. => .occupied
  | .inappropriateType _ code _ => if code = 21 then .isDirectory else .notDirectory
  | other => .other (toString other).toList

def caught {α : Type} (action : IO α) : IO (Except FileFault α) := do
  match ← action.toBaseIO with
  | .ok a => pure (.ok a)
  | .error e => pure (.error (faultOfSystem e))

instance : Storage IO where
  read path := caught do
    let content ← IO.FS.readBinFile (String.ofList path)
    pure content.toList
  write path content := caught (IO.FS.writeBinFile (String.ofList path) ⟨content.toArray⟩)
  makeFolders path := caught (IO.FS.createDirAll (String.ofList path))

def usageLines : List String :=
  ["Read, check and normalize PKG-INFO metadata files",
   "",
   "Usage: pkginfo [-v] show FILE [-f NAME]... [-p] [-c FILE] [--var NAME=VALUE]... [--json]",
   "       pkginfo [-v] check FILE",
   "       pkginfo [-v] eval MARKER [-c FILE] [--var NAME=VALUE]...",
   "       pkginfo [-v] normalize FILE [-o FILE]"]

def usage : String := String.join (usageLines.map (· ++ "\n"))

def faultWords : Command.UsageFault → String
  | .nothingGiven | .helpAsked => ""
  | .versionAsked => "pkginfo 0.1.0\n"
  | .missingCommand => "error: a command is missing\n"
  | .unknownCommand => "error: there is no such command\n"
  | .unknownArgument => "error: there is a word too many\n"
  | .missingArgument => "error: an argument is missing\n"
  | .missingValue => "error: an option needs a value\n"
  | .badValue => "error: a variable is given as NAME=VALUE\n"
  | .unwantedValue => "error: a switch takes no value\n"
  | .repeated => "error: an option is given twice\n"

def refuse (fault : Command.UsageFault) : IO UInt32 := do
  match fault with
  | .helpAsked => IO.print usage; pure 0
  | .versionAsked => IO.print (faultWords fault); pure 0
  | _ => IO.eprint (faultWords fault ++ usage); pure 2

def main (arguments : List String) : IO UInt32 := do
  match ← (Command.perform (arguments.map String.toList) : IO (Except _ Command.Transcript)) with
  | .error fault => refuse fault
  | .ok t =>
    IO.print (String.ofList t.output)
    for warning in t.log do
      IO.eprintln ("warning: " ++ String.ofList warning.message)
    match t.errors with
    | [] => pure 0
    | first :: causes =>
      IO.eprintln ("Error: " ++ String.ofList first)
      for cause in causes do
        IO.eprintln ("  caused by: " ++ String.ofList cause)
      pure 1
