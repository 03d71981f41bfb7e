/-
# Where the settings file is

The path that was named wins; then the file beside the work, if it is there; then the one in the
directory for settings, which the environment tells. A directory whose name is no text is left out.
-/
import FormRehearsal.Files.Path
import FormRehearsal.Settings.Override

namespace FormRehearsal.Settings

/-- The settings file beside the work. -/
def localPath : String := "config/config.yaml"

/-- The directory for settings. -/
def directory? (env : Environment) : Option String :=
  match (env.get? "XDG_CONFIG_HOME").filter (·[0]? = some '/'.toUInt8) with
  | some directory => String.fromUTF8? directory
  | none => ((env.text? "HOME").filter (!·.isEmpty)).map (FilePath.within · ".config")

/-- The path of the settings file. -/
def location (named : Option String) (isThere : String → Bool) (env : Environment) :
    Option String :=
  match named with
  | some path => some path
  | none =>
    if isThere localPath then some localPath
    else (directory? env).map fun d => FilePath.within (FilePath.within d "formpilot") "config.yaml"

end FormRehearsal.Settings
