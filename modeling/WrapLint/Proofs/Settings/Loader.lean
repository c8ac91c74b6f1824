import WrapLint.Settings.Loader

/-!
# Settings from a file

**Results.**
* `outcome_loadFrom`: the settings of a file are those that its text writes.
* `load_of_isPresent`, `load_of_not_isPresent`: the settings of a working directory, by whether the
  path of its settings file leads to something.
-/

namespace WrapLint
namespace Settings

/-- The settings that a text writes, or the problem that it writes none. -/
def ofText (text : String) : Except Problem Settings :=
  match read? text with
  | none => .error .invalidToml
  | some settings => .ok settings

theorem outcome_loadFrom (files : FileAccess) (path : String) :
    (loadFrom files path).outcome =
      match files.read path with
      | .error fault => .error (.unreadable path fault)
      | .ok text => ofText text := by
  unfold loadFrom ofText
  cases files.read path with
  | error fault => rfl
  | ok text =>
      dsimp only
      rw [Traced.outcome_bind, Traced.outcome_note]
      cases read? text <;> rfl

theorem load_of_isPresent (files : FileAccess) {directory : String}
    (hdirectory : files.workingDirectory = some directory)
    (hpresent : files.isPresent (Path.join directory localName) = true) :
    load files = loadFrom files (Path.join directory localName) := by
  simp [load, hdirectory, hpresent]

theorem load_of_not_isPresent (files : FileAccess) {directory : String}
    (hdirectory : files.workingDirectory = some directory)
    (habsent : files.isPresent (Path.join directory localName) = false) :
    load files = loadStandard := by
  simp [load, hdirectory, habsent]

@[simp] theorem outcome_loadStandard : loadStandard.outcome = .ok .standard :=
  rfl

end Settings
end WrapLint
