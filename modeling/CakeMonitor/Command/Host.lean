import CakeMonitor.Command.Executor
/-!
# Commands on this host, step by step

Model of `TcExecutor.exec_command` over `_exec_local`, event by event. `Executor.run` says what a whole command
on this host comes to. While it lasts, several things go on by themselves. The reader of the command starts a
process and waits until this has ended and its output is closed. The process ends when it likes. A watch waits
for the reader, and gives it up when the timeout strikes or the poll loop is stopped: then the reader is
cancelled, and kills the process unless that has ended by itself. Commands come one after another, and a process
is started in one go.

* `Process`, `Command`: a local process, and a command under way.
* `Ending`, `Finished`: how a command came to its end, and what it gave.
* `Host`: all processes and commands so far.
* `Host.handle?`, `Host.run?`: one event and several.
-/

namespace CakeMonitor

/-- What a local process is doing. -/
inductive Process where
  | alive
  /-- it has ended by itself -/
  | ended (exit : Int)
  | killed
  deriving DecidableEq

/-- Why a command is given up. -/
inductive Reason where
  | timeout
  /-- the poll loop is stopped -/
  | stop
  deriving DecidableEq

/-- What a command fails with that is given up. Its reader is cancelled in either case; the watch takes that
for a timeout when it gave up for one, and for a stop else. -/
def Reason.failure (e : Executor) (command : List Text) : Reason → Failure
  | .timeout => .command (.timedOut command e.timeout)
  | .stop => .stopped

/-- How a command came to its end. -/
inductive Ending where
  /-- its reader came to an end -/
  | read
  /-- it was given up, its process being as it was then -/
  | givenUp (reason : Reason) (process : Option Process)
  deriving DecidableEq

/-- A command on this host: its calls so far, and the number of its process. -/
structure Command where
  arguments : List Text
  calls : List Call := []
  process : Option Nat := none
  deriving DecidableEq

/-- The command makes one more call. -/
def Command.call (c : Command) (new : Call) : Command := { c with calls := c.calls ++ [new] }

/-- A command that is over. -/
structure Finished extends Command where
  ending : Ending
  result : Except Failure (Int × Text)

/-- What a command fails with whose process cannot be started because of an exception. -/
def Executor.startFailure (e : Executor) (trouble : Trouble) (message : Text) : Failure :=
  if trouble.isSystem then .command (.notStarted e.program message) else .raised trouble message

/-- The processes and the commands so far. -/
structure Host where
  /-- the processes by their numbers -/
  processes : List Process := []
  /-- the numbers of those that were killed, in order -/
  kills : List Nat := []
  /-- the command under way -/
  current : Option Command := none
  finished : List Finished := []

namespace Host

/-- The process of a command. -/
def processOf (h : Host) (c : Command) : Option Process := c.process.bind (h.processes[·]?)

/-- The command under way is over. -/
def finish (h : Host) (c : Command) (ending : Ending) (result : Except Failure (Int × Text)) : Host :=
  { h with current := none, finished := h.finished ++ [{ toCommand := c, ending, result }] }

/-- A command is asked for. -/
def ask? (h : Host) (arguments : List Text) : Option Host :=
  match h.current with
  | none => some { h with current := some { arguments } }
  | some _ => none

/-- The command under way, when it has no process yet and calls for one. -/
def calling? (h : Host) (e : Executor) : Option Command :=
  (h.current.filter fun c => c.process.isNone).map fun c => c.call (.spawn (e.program :: c.arguments))

/-- The process of the command is started. -/
def start? (h : Host) (e : Executor) : Option Host :=
  (h.calling? e).map fun c =>
    { h with processes := h.processes ++ [.alive]
             current := some { c with process := some h.processes.length } }

/-- The process of the command is not started. -/
def fail? (h : Host) (e : Executor) (failure : Failure) : Option Host :=
  (h.calling? e).map fun c => h.finish c .read (.error failure)

/-- A process ends by itself. -/
def exit? (h : Host) (k : Nat) (exit : Int) : Option Host :=
  if h.processes[k]? = some .alive then some { h with processes := h.processes.set k (.ended exit) }
  else none

/-- The output of the command is closed. Its process has ended before. -/
def close? (h : Host) (out err : Octets) : Option Host := do
  let c ← h.current
  match h.processOf c with
  | some (.ended exit) =>
    return h.finish c .read (.ok (exit, Utf8.decodeLossy (Executor.output { exit, out, err })))
  | _ => none

/-- The reader of a command is cancelled. It kills the process, unless that has ended. -/
def cancelReader (h : Host) (c : Command) : Host × Command :=
  match c.process with
  | some k =>
    if h.processes[k]? = some .alive then
      ({ h with processes := h.processes.set k .killed, kills := h.kills ++ [k] }, c.call .kill)
    else (h, c)
  | none => (h, c)

/-- The command under way is given up. -/
def giveUp? (h : Host) (e : Executor) (reason : Reason) : Option Host :=
  h.current.map fun c =>
    let cancelled := h.cancelReader c
    cancelled.1.finish cancelled.2 (.givenUp reason (h.processOf c))
      (.error (reason.failure e (e.program :: c.arguments)))

/-- What can happen. -/
inductive Event where
  | ask (arguments : List Text)
  | start
  /-- the process cannot be started -/
  | refuse (reason : Text)
  /-- starting the process raises an exception -/
  | raise (trouble : Trouble) (message : Text)
  | exit (process : Nat) (code : Int)
  | close (out err : Octets)
  | giveUp (reason : Reason)
  deriving DecidableEq

/-- The host after an event, if it can happen. -/
def handle? (e : Executor) (h : Host) : Event → Option Host
  | .ask arguments => h.ask? arguments
  | .start => h.start? e
  | .refuse reason => h.fail? e (.command (.notStarted e.program reason))
  | .raise trouble message => h.fail? e (e.startFailure trouble message)
  | .exit k code => h.exit? k code
  | .close out err => h.close? out err
  | .giveUp reason => h.giveUp? e reason

/-- The host after some events, if they can happen. -/
def run? (e : Executor) (h : Host) (events : List Event) : Option Host := events.foldlM (handle? e) h

end Host

end CakeMonitor
