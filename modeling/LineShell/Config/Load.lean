import LineShell.Config.Toml
import LineShell.Machine

/-!
# Loading the configuration

The settings are kept in a file, at a path that is given or at the usual place.

* `Machine.standardConfig` — the settings of a machine without such a file.
* **`Machine.loadConfig`** — the settings from a file; a file that is not there is no error.
-/

namespace LineShell.Machine

/-- The settings where nothing else is said. -/
def standardConfig (m : Machine) : Config :=
  Config.standard m.home

/-- Where the settings are looked for unless a path is given. -/
def configPath (m : Machine) (path : Option Bytes) : Bytes :=
  path.getD (Config.defaultPath m.home)

/-- **The settings from a file**, or the standard ones where it does not exist. -/
def loadConfig (m : Machine) (path : Option Bytes) : Except ShellError Config :=
  if m.pathExists (m.configPath path) then
    match m.readText (m.configPath path) with
    | .error e => .error (.io e)
    | .ok text => (Config.ofToml m.standardConfig text).mapError .config
  else .ok m.standardConfig

end LineShell.Machine
