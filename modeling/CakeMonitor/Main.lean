import CakeMonitor.Json.Print
import CakeMonitor.Launch
import CakeMonitor.Number.Shortest
/-!
# Command line

Reads the settings from the environment and prints what the service is launched with, or which
settings are wrong.
-/

namespace CakeMonitor

/-- The variables of the environment that are set. -/
def readEnvironment : IO Settings.Environment :=
  Settings.variableNames.filterMapM fun name => do
    return (← IO.getEnv name.toString).map fun value => (name, Text.ofString value)

/-- A setting that is wrong, on one line. -/
def Settings.Problem.line (p : Settings.Problem) : String :=
  p.setting ++ ": " ++ p.fault.name

end CakeMonitor

open CakeMonitor in
/-- Print the launch, or the problems of the settings. -/
def main : IO UInt32 := do
  match Launch.ofEnvironment (← readEnvironment) with
  | .ok launch =>
    IO.println (Text.toString (launch.toJson.print RealLayout.plain.render))
    return 0
  | .error problems =>
    for p in problems do IO.eprintln p.line
    return 1
