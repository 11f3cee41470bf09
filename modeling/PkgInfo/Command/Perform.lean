import PkgInfo.Command.Basic
import PkgInfo.DocumentFile
import PkgInfo.Record.Check

/-! Running commands. A command reads and writes files through `Storage` and otherwise is a function
to what it prints, the warnings on the way and why it stopped. -/
namespace PkgInfo.Command

structure Transcript where
  output : Text
  log : List Warning
  errors : List Text
  deriving DecidableEq, Repr

namespace Transcript

def done (output : Text) (log : List Warning) : Transcript := ⟨output, log, []⟩

def failed (errors : List Text) (log : List Warning) : Transcript := ⟨[], log, errors⟩

end Transcript

def trouble (words subject : Text) (cause : Error) : List Text := (words ++ subject) :: cause.chain

def quotedSubject (text : Text) : Text := '\x27' :: text ++ ['\x27']

section
variable {m : Type → Type} [Monad m] [Storage m] [SettingsFormat]

def settingsIn (bytes : Bytes) : Except Error Settings :=
  match Utf8.decode bytes with
  | .error _ => .error (.storage .notText)
  | .ok document => (Settings.ofText document).mapError .settings

def readSettings (path : Text) : m (Except Error Settings) := do
  match ← Storage.read path with
  | .error fault => pure (.error (.storage fault))
  | .ok bytes => pure (settingsIn bytes)

def loadSettings (options : MarkerOptions) : m (Except (List Text) Settings) := do
  match options.config with
  | none => pure (.ok (Settings.default.setVariables options.bindings))
  | some path =>
    match ← readSettings path with
    | .error cause => pure (.error (trouble "Failed to load config ".toList path cause))
    | .ok settings => pure (.ok (settings.setVariables options.bindings))

def withRecord (path : Text) (next : Record → List Warning → m Transcript) : m Transcript := do
  let e ← Record.ofFile path
  match e.failure with
  | some cause => pure (.failed (trouble "Failed to read ".toList path cause) e.log)
  | none => next e.record e.log

end

section
variable [Host]

def selection (r : Record) (names : List Text) : List Text :=
  if names = [] then r.keys.map Field.label else names.map Field.canonical

def readings (r : Record) (names : List Text) : Logged Warning (List (Text × Value)) :=
  Logged.each (fun name => do let value ← r.get name; pure (name, value)) names

def plainLines (fields : List (Text × Value)) : Text :=
  fields.flatMap fun (name, value) =>
    value.asList.flatMap fun text => name ++ ": ".toList ++ text ++ ['\n']

def applySettings (r : Record) (platformDependent : Bool) (settings : Settings) : Record :=
  {r with
    platformDependent := platformDependent || settings.platformDependent
    context := some settings.context}

def printed [JsonPrinter] (json : Bool) (fields : List (Text × Value)) : Text :=
  if json then JsonPrinter.pretty (Table.ofList fields) ++ ['\n'] else plainLines fields

def showRecord [JsonPrinter] (r : Record) (names : List Text) (json : Bool) : Logged Warning Text := do
  let fields ← readings r (selection r names)
  pure (printed json fields)

def checkRecord (path : Text) (r : Record) (log : List Warning) : Transcript :=
  let report := r.check none
  let missing := report.value.missing.map Field.label
  let lines := missing.flatMap (fun f => "missing: ".toList ++ f ++ ['\n']) ++
    report.value.findings.flatMap (fun f => "warning: ".toList ++ f.message ++ ['\n'])
  if missing ≠ [] then
    ⟨lines, log ++ report.log,
      [path ++ " is missing required fields: ".toList ++ Text.joined ", ".toList missing]⟩
  else if report.value.isOk then
    .done (lines ++ r.fullName.value ++ ": ok\n".toList) (log ++ report.log ++ r.fullName.log)
  else .done lines (log ++ report.log)

def evalMarker (marker : Text) (settings : Settings) : Transcript :=
  match Marker.ofText marker with
  | .error cause =>
    .failed (trouble "Invalid marker ".toList (quotedSubject marker) (.marker (.malformed cause))) []
  | .ok parsed =>
    match parsed.expr.evaluate .host (some settings.context) with
    | .error cause =>
      .failed (trouble "Failed to evaluate ".toList (quotedSubject parsed.source)
        (.marker (.undecided cause))) []
    | .ok holds => .done (if holds then "true\n".toList else "false\n".toList) []

end

variable {m : Type → Type} [Monad m] [Storage m] [Host] [SettingsFormat] [JsonPrinter]

def run (command : Command) : m Transcript :=
  match command with
  | .show file names platformDependent markers json => do
    match ← loadSettings markers with
    | .error errors => pure (.failed errors [])
    | .ok settings =>
      withRecord file fun r log =>
        let shown := showRecord (applySettings r platformDependent settings) names json
        pure (.done shown.value (log ++ shown.log))
  | .check file => withRecord file fun r log => pure (checkRecord file r log)
  | .eval marker markers => do
    match ← loadSettings markers with
    | .error errors => pure (.failed errors [])
    | .ok settings => pure (evalMarker marker settings)
  | .normalize file output =>
    withRecord file fun r log => do
      match output with
      | none => pure (.done r.render.value (log ++ r.render.log))
      | some path =>
        let written ← r.toFile path
        match written.value with
        | .error fault =>
          pure (.failed (trouble "Failed to write ".toList path (.storage fault)) (log ++ written.log))
        | .ok () => pure (.done [] (log ++ written.log))

variable {ε : Type} [CommandLine ε]

def perform (words : List Text) : m (Except ε Transcript) :=
  match CommandLine.command words with
  | .error fault => pure (.error fault)
  | .ok command => .ok <$> run command

end PkgInfo.Command
