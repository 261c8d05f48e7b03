import Criteria.Json.Reader
import Criteria.Settings.Source
import Criteria.Toml.Reader

/-!
# `Criteria.Settings.File` — settings from a file under an environment

A settings file holds one table. Its format is the extension of its name, in lower case: JSON and TOML are read here,
and the readers of all other formats are left open. Environment variables replace the values of the file.

## Contents
- **Loaders.** `Loader` is what loading depends on besides the file and the environment.
- **Loading.** `Loader.load` reads the file, writes the environment over it, and checks the settings.
-/

namespace Criteria.Settings

/-- What loading leaves open: how files are read that are neither JSON nor TOML, and in which order the entries of a
    file and of an environment are written. -/
structure Loader where
  /-- The table that a text of another format holds. -/
  otherTable? : (format text : String) → Option Table
  fileOrder : Arrangement
  variableOrder : Arrangement

namespace Loader

/-- The loader that reads no other format and writes entries in the order in which they come. -/
def plain : Loader := ⟨fun _ _ => none, .inserted, .inserted⟩

/-- The table that a file of a format holds. -/
def fileTable? (l : Loader) (format text : String) : Option Table :=
  match format with
  | "json" =>
    match Json.parse? text with
    | some (.object entries) => some entries
    | _ => none
  | "toml" => Toml.parse? text
  | _ => l.otherTable? format text

/-- The settings of a file, as they stand, with the environment laid over it. -/
def layered? (l : Loader) (format text : String) (environment : List (String × String)) :
    Option Settings := do
  let file ← l.fileTable? format text
  ofTable? (merged l.variableOrder (merged l.fileOrder [] file) (environmentEntries environment))

/-- Loads settings. The file must exist. -/
def load (l : Loader) (format : String) (contents : Option String)
    (environment : List (String × String)) : Except Fault Settings :=
  match contents.bind fun text => l.layered? format text environment with
  | some settings => settings.checked
  | none => .error (.settings .unreadable)

end Loader

end Criteria.Settings
