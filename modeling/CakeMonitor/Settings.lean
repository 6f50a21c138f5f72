import CakeMonitor.Coercion
import CakeMonitor.History.Store
/-!
# Settings

Model of `Settings` and `Settings.from_env`. The settings come from environment variables, or as values of a
JSON object. Each is brought to its type by a coercion, and all that are wrong are named.

* `Settings`: the settings with their defaults.
* `Settings.Problem`: a setting that is wrong, and how.
* `Settings.historyLength` (`_min_history`), `Settings.jsonMode` (`_json_mode`): the checks of single settings.
* `Settings.ofValues`: settings from values; what is not mentioned keeps its default.
* `Settings.ofEnvironment` (`from_env`): settings from environment variables; an empty one counts as unset.
-/

namespace CakeMonitor

/-- Whether the structured report is used: never, always, or when the program can give it. -/
inductive JsonMode where
  | off
  | on
  | auto
  deriving DecidableEq

namespace JsonMode

/-- The name of the mode. -/
def name : JsonMode → Text
  | off => "off"
  | on => "on"
  | auto => "auto"

/-- An ASCII capital as its small letter. -/
def lowerCase (c : CodePoint) : CodePoint :=
  if 0x41 ≤ c.val ∧ c.val ≤ 0x5a then .ofNat (c.val + 0x20) else c

/-- The mode of that name, in capital or small letters. -/
def ofText? (t : Text) : Option JsonMode :=
  [off, on, auto].find? fun m => m.name = t.map lowerCase

end JsonMode

/-- The settings of the monitor. -/
structure Settings where
  /-- seconds between polls -/
  pollInterval : Binary64 := .ofNat 1
  /-- samples kept for each interface -/
  historySize : Int := 300
  program : Text := "tc"
  /-- seconds after which a run is given up -/
  timeout : Binary64 := .ofNat 5
  json : JsonMode := .off
  /-- the container in which the program runs -/
  container : Option Text := none
  corsOrigins : List Text := ["http://localhost:3000"]
  logLevel : Text := "INFO"
  host : Text := "0.0.0.0"
  port : Int := 11112
  deriving DecidableEq

namespace Settings

/-- A setting that is wrong; in a list the item is told too. -/
structure Problem where
  setting : String
  item : Option Nat := none
  fault : Fault
  deriving DecidableEq

/-- A positive real from a value. -/
def positive (c : Coercion) (v : Json) : Except Fault Binary64 := do
  let x ← c.real v
  if Binary64.zero.lt x then .ok x else .error .notPositive

/-- The size of the history: at least two samples are kept. -/
def historyLength (c : Coercion) (v : Json) : Except Fault Int :=
  (c.integer v).map (max · (minCapacity : Int))

/-- A mode from a value. -/
def jsonMode (c : Coercion) (v : Json) : Except Fault JsonMode := do
  match JsonMode.ofText? (← c.text v) with
  | some m => .ok m
  | none => .error .notAllowed

/-- A text or nothing from a value. -/
def optionalText (c : Coercion) : Json → Except Fault (Option Text)
  | .null => .ok none
  | v => (c.text v).map some

/-- The value of a setting, or its default, with the problem if there is one. -/
def setting {α : Type} (values : Json) (name : String) (default : α) (read : Json → Except Fault α) :
    α × List Problem :=
  match values.field? name with
  | none => (default, [])
  | some v => match read v with
    | .ok a => (a, [])
    | .error fault => (default, [{ setting := name, fault }])

/-- The problem with an item of a list, if there is one. -/
def itemProblem? (name : String) (i : Nat) : Except Fault Text → Option Problem
  | .ok _ => none
  | .error fault => some { setting := name, item := some i, fault }

/-- The items of a list of texts, with a problem for each that is no text. -/
def texts (c : Coercion) (name : String) (items : List Json) : List Text × List Problem :=
  let read := items.map c.text
  (read.filterMap Except.toOption, read.zipIdx.filterMap fun (r, i) => itemProblem? name i r)

/-- The value of a setting that is a list of texts. -/
def listSetting (c : Coercion) (values : Json) (name : String) (default : List Text) :
    List Text × List Problem :=
  match values.field? name with
  | none => (default, [])
  | some (.array items) => texts c name items
  | some _ => (default, [{ setting := name, fault := .notList }])

/-- Settings from the values of an object, or the problems in the order of the settings. -/
def ofValues (values : Json) (c : Coercion := .lax) : Except (List Problem) Settings :=
  let d : Settings := {}
  let (pollInterval, p₁) := setting values "poll_interval" d.pollInterval (positive c)
  let (historySize, p₂) := setting values "history_size" d.historySize (historyLength c)
  let (program, p₃) := setting values "tc_binary" d.program c.text
  let (timeout, p₄) := setting values "tc_timeout" d.timeout (positive c)
  let (json, p₅) := setting values "tc_json" d.json (jsonMode c)
  let (container, p₆) := setting values "container" d.container (optionalText c)
  let (corsOrigins, p₇) := listSetting c values "cors_origins" d.corsOrigins
  let (logLevel, p₈) := setting values "log_level" d.logLevel c.text
  let (host, p₉) := setting values "host" d.host c.text
  let (port, p₁₀) := setting values "port" d.port c.integer
  match p₁ ++ p₂ ++ p₃ ++ p₄ ++ p₅ ++ p₆ ++ p₇ ++ p₈ ++ p₉ ++ p₁₀ with
  | [] => .ok { pollInterval, historySize, program, timeout, json, container, corsOrigins,
                logLevel, host, port }
  | problems => .error problems

/-- Environment variables with their values. -/
abbrev Environment := List (Text × Text)

/-- The value of a variable; an empty one counts as unset. -/
def valueOf? (env : Environment) (name : Text) : Option Text :=
  ((env.find? fun v => v.1 = name).map (·.2)).filter (· ≠ [])

/-- The settings of one value, each with its variable. -/
def variableOf : List (String × Text) :=
  [("poll_interval", "CAKE_STATS_POLL_INTERVAL"), ("history_size", "CAKE_STATS_HISTORY"),
   ("tc_binary", "CAKE_STATS_TC_BINARY"), ("tc_timeout", "CAKE_STATS_TC_TIMEOUT"),
   ("tc_json", "CAKE_STATS_TC_JSON"), ("container", "CAKE_STATS_CONTAINER"),
   ("log_level", "CAKE_STATS_LOG_LEVEL"), ("host", "CAKE_STATS_HOST"),
   ("port", "CAKE_STATS_PORT")]

/-- The variable that lists origins. -/
def originsVariable : Text := "CAKE_STATS_CORS_ORIGINS"

/-- All variables that are looked at. -/
def variableNames : List Text := originsVariable :: variableOf.map (·.2)

/-- The origins in a list with commas: trimmed, and without empty ones. -/
def origins (t : Text) : List Text := ((t.pieces ',').map Text.trim).filter (· ≠ [])

/-- The values that the environment gives. -/
def environmentValues (env : Environment) : Json :=
  .obj <|
    (variableOf.filterMap fun (name, v) => (valueOf? env v).map fun t => (name, .text t))
    ++ ((valueOf? env originsVariable).map fun t =>
      ("cors_origins", .array ((origins t).map .text))).toList

/-- Settings from environment variables. -/
def ofEnvironment (env : Environment) (c : Coercion := .lax) : Except (List Problem) Settings :=
  ofValues (environmentValues env) c

/-- The settings as a JSON object. -/
def toJson (s : Settings) : Json :=
  .obj [("poll_interval", .real s.pollInterval), ("history_size", .int s.historySize),
    ("tc_binary", .text s.program), ("tc_timeout", .real s.timeout), ("tc_json", .text s.json.name),
    ("container", (s.container.map .text).getD .null),
    ("cors_origins", .array (s.corsOrigins.map .text)), ("log_level", .text s.logLevel),
    ("host", .text s.host), ("port", .int s.port)]

end Settings

end CakeMonitor
