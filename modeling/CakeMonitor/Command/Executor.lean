import CakeMonitor.Command.World
import CakeMonitor.Number.Shortest
import CakeMonitor.Report.Structured
/-!
# Running the statistics program

Model of `TcExecutor` and `TcExecutionError`. An executor runs its program on this host or, when it has a
container, in that container. The connection to the container service and the container found there are kept
for later runs.

* `CommandError`, `Failure`: what can go wrong, with the message.
* `Site`: the world with what the executor keeps; `Site.close` is `close`.
* `Executor.findContainer` (`get_container`): the container, connected to and looked up if need be.
* `Executor.runInContainer` (`_exec_container`), `Executor.runLocally` (`_exec_local`), `Executor.run`
  (`exec_command`): one run with its exit code and output; a run that hangs is given up after the
  timeout or when the poll loop is stopped, and killed if it is a local process.
* `Executor.report` (`qdisc_stats`): the output of a run that must succeed.

Messages to the log are left out here and everywhere. Commands come one after another; a run in a container
that was given up is not followed any further.
-/

namespace CakeMonitor

/-- Why a command did not give its output. -/
inductive CommandError where
  | noContainer (container : Text)
  | noService (reason : Text)
  | notStarted (program reason : Text)
  | notExecuted (reason : Text)
  | timedOut (command : List Text) (timeout : Binary64)
  | exited (arguments : List Text) (code : Int) (output : Text)
  deriving DecidableEq

namespace CommandError

/-- The message of the reason. -/
def message : CommandError → Text
  | .noContainer container =>
    ("Container '" : Text) ++ container ++ ("' not found. Is it running?" : Text)
  | .noService reason => ("Docker is not available: " : Text) ++ reason
  | .notStarted program reason =>
    ("Failed to start " : Text) ++ program ++ (": " : Text) ++ reason
  | .notExecuted reason => ("Failed to execute command: " : Text) ++ reason
  | .timedOut command timeout =>
    ("'" : Text) ++ Text.join " " command ++ ("' timed out after " : Text)
      ++ RealLayout.plain.render timeout ++ ("s" : Text)
  | .exited arguments code output =>
    ("tc " : Text) ++ Text.join " " arguments ++ (" exited with " : Text) ++ Text.ofInt code
      ++ (": " : Text) ++ output.trim

end CommandError

/-- Why a command or the reading of its output failed. -/
inductive Failure where
  | command (e : CommandError)
  | report (e : ReportError)
  | raised (trouble : Trouble) (message : Text)
  /-- the poll loop was stopped -/
  | stopped
  deriving DecidableEq

namespace Failure

/-- The kind under which the reason is reported. -/
def kind : Failure → String
  | .command _ => "TcExecutionError"
  | .report e => e.kind
  | .raised trouble _ => trouble.kind
  | .stopped => "CancelledError"

/-- The message of the reason. -/
def message : Failure → Text
  | .command e => e.message
  | .report e => e.message
  | .raised _ message => message
  | .stopped => []

end Failure

/-- The world with what an executor keeps between runs. -/
structure Site where
  world : World := {}
  /-- whether it is connected to the container service -/
  connected : Bool := false
  /-- the container that was found, if it is still good -/
  container : Option Container := none
  deriving DecidableEq

/-- A computation on the site; a failure keeps what happened before it. -/
abbrev Act := EStateM Failure Site

namespace Site

/-- A call without answer. -/
def note (c : Call) : Act Unit := modify fun s => { s with world := s.world.note c }

/-- Ask for a run. -/
def run (c : Call) : Act Run := modifyGet fun s =>
  let (r, world) := s.world.run c
  (r, { s with world })

/-- Ask the container service. -/
def lookup (c : Call) : Act Lookup := modifyGet fun s =>
  let (l, world) := s.world.lookup c
  (l, { s with world })

/-- Close the connection to the container service, if there is one. -/
def close : Act Unit := do
  if (← get).connected then note .disconnect

end Site

/-- How the statistics program is run. -/
structure Executor where
  program : Text := "tc"
  container : Option Text := none
  /-- in seconds -/
  timeout : Binary64
  deriving DecidableEq

namespace Executor

/-- Connect to the container service, unless it is connected. -/
def connect : Act Unit := do
  if !(← get).connected then
    if (← Site.lookup .connect) = .unavailable then
      throw (.command (.noService "socket missing"))
    modify fun s => { s with connected := true }

/-- Look up the container, unless a good one is known. -/
def findContainer (container : Text) : Act Container := do
  match (← get).container with
  | some known => return known
  | none =>
    connect
    match ← Site.lookup (.find container) with
    | .found new =>
      modify fun s => { s with container := some new }
      return new
    | .notFound => throw (.command (.noContainer container))
    | .unavailable => throw (.command (.noService "socket missing"))

/-- Run a command in the container. After an error of the container service the container is looked
up anew the next time. -/
def runInContainer (e : Executor) (container : Text) (command : List Text) : Act (Int × Text) := do
  let r ← Site.run (.exec (← findContainer container) command)
  match r.fate with
  | .hangs => throw (.command (.timedOut command e.timeout))
  | .interrupted => throw .stopped
  | .raises trouble message =>
    if trouble.isService then
      modify fun s => { s with container := none }
      throw (.command (.notExecuted message))
    else throw (.raised trouble message)
  | .ends | .refused _ => return (r.exit, Utf8.decodeLossy r.out)

/-- The output of a process that ended: the standard output, and for one that failed its error
output if there is any. -/
def output (r : Run) : Octets := if r.exit = 0 ∨ r.err = [] then r.out else r.err

/-- Run a command as a local process. -/
def runLocally (e : Executor) (command : List Text) : Act (Int × Text) := do
  let r ← Site.run (.spawn command)
  match r.fate with
  | .ends => return (r.exit, Utf8.decodeLossy (output r))
  | .hangs =>
    Site.note .kill
    throw (.command (.timedOut command e.timeout))
  | .interrupted =>
    Site.note .kill
    throw .stopped
  | .refused reason => throw (.command (.notStarted e.program reason))
  | .raises trouble message =>
    if trouble.isSystem then throw (.command (.notStarted e.program message))
    else throw (.raised trouble message)

/-- Run the program with these arguments: exit code and output. -/
def run (e : Executor) (arguments : List Text) : Act (Int × Text) :=
  let command := e.program :: arguments
  match e.container with
  | some container => e.runInContainer container command
  | none => e.runLocally command

/-- The arguments that ask for statistics, as JSON or printed. -/
def statisticsArguments (json : Bool) : List Text :=
  if json then ["-j", "-s", "qdisc"] else ["-s", "qdisc"]

/-- The statistics report; a program that fails is an error. -/
def report (e : Executor) (json : Bool) : Act Text := do
  let (code, output) ← e.run (statisticsArguments json)
  if code ≠ 0 then throw (.command (.exited (statisticsArguments json) code output))
  return output

end Executor

end CakeMonitor
