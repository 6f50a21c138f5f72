import CakeMonitor.Settings
import CakeMonitor.Text.Capital
/-!
# Launching

Model of `run`, up to the call that serves the application.

* `Launch.ofEnvironment`: where the service listens and what it logs.
-/

namespace CakeMonitor

/-- What the service is launched with. -/
structure Launch where
  host : Text
  port : Int
  /-- the least level of messages that are logged -/
  level : Text
  title : Text := "CAKE Stats API"
  deriving DecidableEq

namespace Launch

/-- The launch that settings describe. -/
def ofSettings (s : Settings) : Launch :=
  { host := s.host, port := s.port, level := s.logLevel.toUpper }

/-- The launch that the environment describes, or the problems of its settings. -/
def ofEnvironment (env : Settings.Environment) (c : Coercion := .lax) :
    Except (List Settings.Problem) Launch :=
  (Settings.ofEnvironment env c).map ofSettings

/-- The launch as a JSON object. -/
def toJson (l : Launch) : Json :=
  .obj [("host", .text l.host), ("port", .int l.port), ("level", .text l.level),
    ("title", .text l.title)]

end Launch

end CakeMonitor
