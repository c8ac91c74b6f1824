import WrapLint.Files.Path
import WrapLint.Log
import WrapLint.Settings.Decode

/-!
# Loading settings

**Input.**  Access to files, and perhaps the path of a settings file.

**Rules.**  With a path, that file must be there and hold settings.  Without one, the file
`localName` of the working directory is taken if it is there, and otherwise the standard
settings.
-/

namespace WrapLint

/-- What loading needs to know about files. -/
structure FileAccess where
  /-- The path of the working directory, if it is known. -/
  workingDirectory : Option String
  isPresent : String → Bool
  read : String → Except FileFault String

namespace Settings

/-- The name of the settings file that is looked for in the working directory. -/
def localName : String :=
  ".wrap-guard.toml"

/-- The settings of the file at this path. -/
def loadFrom (files : FileAccess) (path : String) : Traced Settings := do
  match files.read path with
  | .error fault => .fail (.unreadable path fault)
  | .ok text =>
    Traced.note (.settingsLoaded path)
    match Settings.read? text with
    | none => .fail .invalidToml
    | some settings => pure settings

/-- The standard settings, taken because there is no settings file. -/
def loadStandard : Traced Settings := do
  Traced.note (.noLocalSettings localName)
  pure .standard

/-- The settings that hold in the working directory. -/
def load (files : FileAccess) : Traced Settings :=
  match files.workingDirectory with
  | none => loadStandard
  | some directory =>
    let path := Path.join directory localName
    if files.isPresent path then loadFrom files path else loadStandard

end Settings
end WrapLint
