import PkgInfo.Main.Json
import PkgInfo.Main.Toml.Format
import PkgInfo.Proofs.Command.Bindings
import PkgInfo.Proofs.Command.Sources
import PkgInfo.Proofs.Marker.Standing
import PkgInfo.Proofs.Record.Sight

/-! What a name stands for in a marker that a command looks at: what was given for it last on the
command line, else what the settings have for it, else what is built in. -/
namespace PkgInfo.Command

def standing [Host] (arguments : List Text) (table : Marker.Context) (name : Text) : Option Text :=
  (lastGiven name arguments).or ((table.find? name).or (Marker.Environment.host.find? name))

def answer (marker : Text) : Except Marker.Fault Bool → Transcript
  | .ok holds => .done (if holds then "true\n".toList else "false\n".toList) []
  | .error (.malformed cause) =>
    .failed (trouble "Invalid marker ".toList (quotedSubject marker) (.marker (.malformed cause))) []
  | .error (.undecided cause) =>
    .failed (trouble "Failed to evaluate ".toList (quotedSubject (Text.trim marker))
      (.marker (.undecided cause))) []

theorem evalAnswer [Host] (marker : Text) (settings : Settings) :
    evalMarker marker settings =
      answer marker (Marker.interpret .host (some settings.context) marker) := by
  unfold evalMarker Marker.ofText Marker.interpret
  cases Marker.parse marker with
  | error cause => rfl
  | ok expr =>
    simp only [Except.map]
    cases expr.evaluate .host (some settings.context) <;> rfl

section
variable [Host] {arguments : List Text} {bindings : List (Text × Text)}

theorem resolveStanding (parsed : arguments.mapM bindingOfText = .ok bindings) (file : Settings) :
    Marker.resolve? .host (some (file.setVariables bindings).context) =
      standing arguments file.context := by
  funext name
  simp only [Marker.resolve?, Option.bind_some, variableFound parsed, standing, Option.or_assoc]

theorem interpretStanding (parsed : arguments.mapM bindingOfText = .ok bindings) (file : Settings) :
    Marker.interpret .host (some (file.setVariables bindings).context) =
      Marker.outcome (standing arguments file.context) := by
  funext source
  rw [Marker.interpretUnder, resolveStanding parsed]

end

section
variable [JsonPrinter]

def sights (decide : Text → Except Marker.Fault Bool) (siftsMarked : Bool) (names : List Text)
    (r : Record) : List (Text × Logged Warning Value) :=
  let fields := if names = [] then r.keys.map Field.label else names.map Field.canonical
  fields.map fun field => (field, r.sight decide field siftsMarked)

def printout (json : Bool) (seen : List (Text × Logged Warning Value)) : Logged Warning Text where
  value :=
    let fields := seen.map fun (name, sight) => (name, sight.value)
    if json then JsonPrinter.pretty (Table.ofList fields) ++ ['\n']
    else fields.flatMap fun (name, value) =>
      value.asList.flatMap fun text => name ++ ": ".toList ++ text ++ ['\n']
  log := seen.flatMap fun (_, sight) => sight.log

def displayed (path : Text) (json : Bool) (seen : Record → List (Text × Logged Warning Value)) :
    Except FileFault Bytes → Transcript
  | .error fault => .failed (trouble "Failed to read ".toList path (.storage fault)) []
  | .ok bytes =>
    let e := Record.read bytes
    match e.failure with
    | some cause => .failed (trouble "Failed to read ".toList path cause) e.log
    | none =>
      let shown := printout json (seen e.record)
      .done shown.value (e.log ++ shown.log)

end

theorem canonicalSelected {r : Record} {names : List Text} :
    ∀ name ∈ selection r names, Field.canonical name = name := by
  unfold selection
  split
  · simp only [List.forall_mem_map]
    exact fun f _ => Field.canonicalLabel f
  · simp only [List.forall_mem_map]
    exact fun name _ => Field.canonicalTwice name

theorem readingsSights [Host] {r : Record} (sound : r.Sound) (names : List Text) :
    let seen := sights (Marker.interpret .host r.context) r.platformDependent names r
    (readings r (selection r names)).value = seen.map (fun (name, sight) => (name, sight.value)) ∧
      (readings r (selection r names)).log = seen.flatMap fun (_, sight) => sight.log := by
  intro seen
  have each : ∀ name ∈ selection r names, r.get name =
      r.sight (Marker.interpret .host r.context) name r.platformDependent := by
    intro name member
    rw [Record.getSight sound, canonicalSelected name member]
  have same : seen = (selection r names).map fun name => (name, r.get name) :=
    List.map_congr_left fun name member => by rw [each name member]
  rw [same, readings, Logged.valueEach, Logged.logEach]
  simp [List.flatMap_map]

section
variable [Host] [JsonPrinter]

theorem showSights {r : Record} (sound : r.Sound) (names : List Text) (json : Bool) :
    showRecord r names json =
      printout json (sights (Marker.interpret .host r.context) r.platformDependent names r) := by
  obtain ⟨value, log⟩ := readingsSights sound names
  simp only [showRecord, bind, pure, List.append_nil, value, log]
  rfl

variable {m : Type → Type} [Monad m] [LawfulMonad m] [Storage m]

theorem showDisplayed (path : Text) (names : List Text) (platformDependent json : Bool)
    (settings : Settings) :
    withRecord (m := m) path (fun r log =>
      let shown := showRecord (applySettings r platformDependent settings) names json
      pure (.done shown.value (log ++ shown.log))) =
    displayed path json (sights (Marker.interpret .host (some settings.context))
      (platformDependent || settings.platformDependent) names) <$> Storage.read path := by
  simp only [withRecord, Record.ofFile, bind_assoc, ← bind_pure_comp]
  congr
  funext content
  cases content with
  | error fault => simp only [pure_bind, displayed]
  | ok bytes =>
    have sound : Record.Sound (applySettings (Record.read bytes).record platformDependent settings) :=
      Record.reachableSound ⟨[.readInto bytes, .platformDependent (platformDependent || settings.platformDependent),
        .context (some settings.context)], rfl⟩
    cases failed : (Record.read bytes).failure with
    | some cause => simp only [pure_bind, displayed, failed]
    | none =>
      simp only [pure_bind, displayed, failed, showSights sound]
      rfl

end

/-- Where a marker is evaluated and where values are shown, a name stands for what was given for it last,
else for what the settings file has, else for what is built in; else the marker has no outcome. Entries for
names that do not occur count for nothing. -/
theorem variablePrecedence {m : Type → Type} [Monad m] [LawfulMonad m] [Storage m] [Host] [SettingsFormat]
    [JsonPrinter] {arguments : List Text} {bindings : List (Text × Text)}
    (parsed : arguments.mapM bindingOfText = .ok bindings) :
    (∀ (file : Settings) name,
      Marker.resolve? .host (some (file.setVariables bindings).context) name =
        standing arguments file.context name) ∧
    (∀ marker config,
      Follows (m := m) config (run (.eval marker ⟨config, bindings⟩)) fun file =>
        pure (answer marker (Marker.outcome (standing arguments file.context) marker))) ∧
    (∀ path names platformDependent config json,
      Follows (m := m) config (run (.show path names platformDependent ⟨config, bindings⟩ json)) fun file =>
        displayed path json (sights (Marker.outcome (standing arguments file.context))
          (platformDependent || file.platformDependent) names) <$> Storage.read path) ∧
    (∀ e e' context context' (expr : Marker.Expr),
      (∀ name ∈ expr.variables,
        Marker.resolve? e context name = Marker.resolve? e' context' name) →
      expr.evaluate e context = expr.evaluate e' context') ∧
    ∀ e (context : Marker.Context) (expr : Marker.Expr) name value, name ∉ expr.variables →
      expr.evaluate e (some (context.insert name value)) = expr.evaluate e (some context) := by
  have agree : ∀ e e' context context' (expr : Marker.Expr), (∀ name ∈ expr.variables,
      Marker.resolve? e context name = Marker.resolve? e' context' name) →
      expr.evaluate e context = expr.evaluate e' context' := by
    intro e e' context context' expr same
    rw [Marker.evaluateUnder, Marker.evaluateUnder, Marker.exprAgree same]
  refine ⟨fun file name => congrFun (resolveStanding parsed file) name, fun marker config => ?_,
    fun path names platformDependent config json => ?_, agree, fun e context expr name value absent => ?_⟩
  · simp only [← interpretStanding parsed, ← evalAnswer]
    exact followsLoaded config bindings fun settings => pure (evalMarker marker settings)
  · have shows (file : Settings) := showDisplayed (m := m) path names platformDependent json
      (file.setVariables bindings)
    simp only [interpretStanding parsed, Settings.switchKept] at shows
    simp only [← shows]
    exact followsLoaded config bindings fun settings => withRecord path fun r log =>
      let shown := showRecord (applySettings r platformDependent settings) names json
      pure (.done shown.value (log ++ shown.log))
  · refine agree e e _ _ expr fun other member => ?_
    have apart : name ≠ other := fun same => absent (same ▸ member)
    simp only [Marker.resolve?, Option.bind_some, Table.findInsert, apart, if_false]

def repeatedArguments : List Text := ["os.name=nt", "x=y", " os.name =java=1"].map String.toList

def repeatedBindings : List (Text × Text) :=
  [("os.name", "nt"), ("x", "y"), ("os.name", "java=1")].map fun (name, value) =>
    (name.toList, value.toList)

def overlaidSettings : Settings :=
  ⟨true, Table.ofList [("os.name".toList, "ce".toList), ("python_version".toList, "2.7".toList)]⟩

def overlaidDocument : Text :=
  ("platform_dependent = true\n[variables]\n\"os.name\" = \"ce\"\n" ++
    "\"python_version\" = \"2.7\"\n").toList

def markedDocument : Text :=
  ("Metadata-Version: 1.1\nName: a\nClassifier: x; os.name == 'java=1'\nClassifier: y; os.name == 'ce'\n" ++
    "Classifier: z; python_version == '2.7' and sys.platform == 'linux'\nClassifier: w; nope == 'a'\n").toList

def overlaidDirectory : Directory where
  entries := [(["vars.toml".toList], .file (Utf8.encode overlaidDocument)),
    (["PKG-INFO".toList], .file (Utf8.encode markedDocument))]

def overlaid : Marker.Context := (overlaidSettings.setVariables repeatedBindings).context

def windows : Marker.Environment := .detect "windows".toList "x86_64".toList

def onJava : Marker.Expr :=
  .compare ⟨.named "os.name".toList, .equal, .literal "'java=1'".toList⟩

attribute [local instance] Host.linux Settings.toml json

theorem variablePrecedenceRepeated :
    let file := "vars.toml".toList
    let marker := "os.name == 'java=1' and python_version == '2.7' and sys.platform == 'linux'".toList
    repeatedArguments.mapM bindingOfText = .ok repeatedBindings ∧
    (["os.name", "python_version", "sys.platform", "z"].map fun name =>
      Marker.resolve? .host (some overlaid) name.toList) =
        [some "java=1".toList, some "2.7".toList, some "linux".toList, none] ∧
    run (m := StateM Directory) (.eval marker ⟨some file, repeatedBindings⟩) overlaidDirectory =
      (.done "true\n".toList [], overlaidDirectory) ∧
    run (m := StateM Directory) (.eval marker ⟨none, repeatedBindings⟩) overlaidDirectory =
      (.done "false\n".toList [], overlaidDirectory) ∧
    run (m := StateM Directory) (.eval "z=='a'".toList ⟨none, repeatedBindings⟩) overlaidDirectory =
      (.failed ["Failed to evaluate 'z=='a''".toList,
        "cannot evaluate environment marker: 'z' is not a known variable".toList] [], overlaidDirectory) ∧
    run (m := StateM Directory) (.eval marker ⟨some "a/b".toList, repeatedBindings⟩) overlaidDirectory =
      (.failed ["Failed to load config a/b".toList,
        "I/O error: No such file or directory (os error 2)".toList,
        "No such file or directory (os error 2)".toList] [], overlaidDirectory) ∧
    run (m := StateM Directory) (.show documentName ["classifier".toList] false
        ⟨some file, repeatedBindings⟩ false) overlaidDirectory =
      (.done "Classifier: x\nClassifier: z\n".toList
        [.hidden Field.classifier.label "w".toList (.undecided (.unknownVariable "nope".toList))],
        overlaidDirectory) ∧
    onJava.evaluate .host (some overlaid) =
      onJava.evaluate windows (some (Table.ofList [("os.name".toList, "java=1".toList)])) ∧
    onJava.evaluate .host (some (overlaid.insert "z".toList [])) =
      onJava.evaluate .host (some overlaid) := by
  intro file marker
  have parsed : repeatedArguments.mapM bindingOfText = .ok repeatedBindings := by decide +kernel
  obtain ⟨found, evaluates, shows, agree, absent⟩ := variablePrecedence (m := StateM Directory) parsed
  have has : sourceOf (overlaidDirectory.read file) = .ok overlaidSettings := by decide +kernel
  have misses : sourceOf (overlaidDirectory.read "a/b".toList) = .error (.storage .notFound) := by
    decide +kernel
  refine ⟨parsed, ?_, ?_, ?_, ?_, ?_, ?_, agree _ _ _ _ onJava (by decide +kernel), absent _ _ onJava _ _ (by decide)⟩
  · simp only [overlaid, found]
    decide +kernel
  · rw [followsRead (evaluates marker (some file)) has]
    exact congrArg (·, overlaidDirectory) (by decide +kernel)
  · rw [(evaluates marker none).unnamed rfl]
    exact congrArg (·, overlaidDirectory) (by decide +kernel)
  · rw [(evaluates "z=='a'".toList none).unnamed rfl]
    exact congrArg (·, overlaidDirectory) (by decide +kernel)
  · rw [followsRead (evaluates marker (some "a/b".toList)) misses]
    exact congrArg (·, overlaidDirectory) (by decide +kernel)
  · rw [followsRead (shows documentName ["classifier".toList] false (some file) false) has]
    exact congrArg (·, overlaidDirectory) (by decide +kernel)

end PkgInfo.Command
