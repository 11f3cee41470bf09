import PkgInfo.Command.Perform
import PkgInfo.Proofs.Text.Decoding

/-! Where the settings of a command come from: a file that is named, else nothing is set. What is said of
variables on the command line is added to what the file has and cannot make the file count or fail. -/
namespace PkgInfo.Command

section
variable [SettingsFormat]

inductive Sourced : Except FileFault Bytes → Except Error Settings → Prop where
  | unread {fault} : Sourced (.error fault) (.error (.storage fault))
  | garbled {bytes} (unwritten : ∀ document, bytes ≠ Utf8.encode document) :
      Sourced (.ok bytes) (.error (.storage .notText))
  | refused {document words} (refuses : SettingsFormat.read document = .error words) :
      Sourced (.ok (Utf8.encode document)) (.error (.settings (.document words)))
  | misnamed {document file before name after} (reads : SettingsFormat.read document = .ok file)
      (names : file.context.keys = before ++ name :: after)
      (first : ∀ other ∈ before, Settings.isVariableName other = true)
      (wrong : Settings.isVariableName name = false) :
      Sourced (.ok (Utf8.encode document)) (.error (.settings (.invalidName name)))
  | table {document file} (reads : SettingsFormat.read document = .ok file)
      (named : ∀ name ∈ file.context.keys, Settings.isVariableName name = true) :
      Sourced (.ok (Utf8.encode document)) (.ok file)

def sourceOf : Except FileFault Bytes → Except Error Settings
  | .error fault => .error (.storage fault)
  | .ok bytes => settingsIn bytes

theorem checkedSourced {document : Text} {file : Settings}
    (reads : SettingsFormat.read document = .ok file) :
    Sourced (.ok (Utf8.encode document)) (file.checked.mapError .settings) := by
  rcases file.checkedCases with accepted | ⟨name, refused⟩
  · rw [accepted]
    exact .table reads (Settings.checkedAccepted.1 accepted)
  · obtain ⟨before, after, names, first, wrong⟩ := Settings.checkedRefused.1 refused
    rw [refused]
    exact .misnamed reads names first wrong

theorem settingsSourced (document : Text) :
    Sourced (.ok (Utf8.encode document)) (settingsIn (Utf8.encode document)) := by
  simp only [settingsIn, Utf8.decodeEncode, Settings.ofText]
  cases reads : SettingsFormat.read document with
  | error words => exact .refused reads
  | ok file => exact checkedSourced reads

theorem sourced (content : Except FileFault Bytes) : Sourced content (sourceOf content) := by
  cases content with
  | error fault => exact .unread
  | ok bytes =>
    cases decoded : Utf8.decode bytes with
    | ok document =>
      rw [Utf8.decodedIff.1 decoded]
      exact settingsSourced document
    | error fault =>
      rw [sourceOf, settingsIn, decoded]
      refine .garbled fun document same => ?_
      rw [Utf8.decodedIff.2 same] at decoded
      contradiction

theorem sourcedIff {content : Except FileFault Bytes} {outcome : Except Error Settings} :
    Sourced content outcome ↔ outcome = sourceOf content := by
  constructor
  · intro source
    cases source with
    | unread => rfl
    | garbled unwritten =>
      cases decoded : Utf8.decode _ with
      | ok document => exact absurd (Utf8.decodedIff.1 decoded) (unwritten document)
      | error fault => simp only [sourceOf, settingsIn, decoded]
    | refused refuses =>
      simp only [sourceOf, settingsIn, Utf8.decodeEncode, Settings.ofText, refuses]
      rfl
    | misnamed reads names first wrong =>
      simp only [sourceOf, settingsIn, Utf8.decodeEncode, Settings.checkedRead reads,
        Settings.checkedRefused.2 ⟨_, _, names, first, wrong⟩]
      rfl
    | table reads named =>
      simp only [sourceOf, settingsIn, Utf8.decodeEncode, Settings.checkedRead reads,
        Settings.checkedAccepted.2 named]
      rfl
  · rintro rfl
    exact sourced content

end

section
variable {m : Type → Type} [Monad m] [Storage m] [SettingsFormat]

-- A command that goes on with the settings of the file that is named, and stops where there are none.
structure Follows (config : Option Text) (command : m Transcript) (next : Settings → m Transcript) :
    Prop where
  unnamed : config = none → command = next ⟨false, ∅⟩
  named : ∀ path, config = some path → ∃ onward, command = Storage.read path >>= onward ∧
    ∀ content, ∃ outcome, Sourced content outcome ∧ onward content = match outcome with
      | .ok file => next file
      | .error cause => pure (.failed (trouble "Failed to load config ".toList path cause) [])

variable [LawfulMonad m]

theorem followsLoaded (config : Option Text) (bindings : List (Text × Text))
    (next : Settings → m Transcript) :
    Follows config (do
      match ← loadSettings ⟨config, bindings⟩ with
      | .error errors => pure (.failed errors [])
      | .ok settings => next settings) fun file => next (file.setVariables bindings) := by
  constructor
  · rintro rfl
    simp only [loadSettings, pure_bind]
    rfl
  · rintro path rfl
    refine ⟨_, ?_, fun content => ⟨_, sourced content, rfl⟩⟩
    simp only [loadSettings, readSettings, bind_assoc]
    congr
    funext content
    cases content with
    | error fault => simp only [pure_bind]; rfl
    | ok bytes =>
      simp only [pure_bind, sourceOf]
      cases settingsIn bytes <;> simp only [pure_bind]

end

theorem followsRead [SettingsFormat] {path : Text} {command : StateM Directory Transcript}
    {next : Settings → StateM Directory Transcript} (follows : Follows (some path) command next)
    {d : Directory} {outcome : Except Error Settings} (source : sourceOf (d.read path) = outcome) :
    command d = (match outcome with
      | .ok file => next file
      | .error cause => pure (.failed (trouble "Failed to load config ".toList path cause) [])) d := by
  obtain ⟨onward, same, ahead⟩ := follows.named path rfl
  obtain ⟨found, sourced, goes⟩ := ahead (d.read path)
  rw [sourcedIff.1 sourced, source] at goes
  rw [same]
  exact congrFun goes d

end PkgInfo.Command
