import PkgInfo.Command.Perform
import PkgInfo.Main.Arguments
import PkgInfo.Main.Json
import PkgInfo.Main.Toml.Format

/-! What the commands are run with: the host, settings in TOML, fields as JSON and the words of a command
line. -/
namespace PkgInfo

instance : Host := .linux

instance : SettingsFormat := Settings.toml

instance : JsonPrinter := Command.json

instance : CommandLine Command.UsageFault := Command.words

end PkgInfo
