import CakeMonitor.Text.Utf8
/-!
# What commands meet

The statistics come from a program that is run on this host or in a container. What the host and the
container service do is not up to the monitor: it is a sequence of outcomes, from which every run and
every look-up takes the next one. That is all there is here of processes, of the container service and of
its client.

* `Run`: what one run of a program does.
* `Container`, `Lookup`: a container, and how the container service answers.
* `World`: the outcomes to come, and the calls that were made so far.
-/

namespace CakeMonitor

/-- The exceptions that a run may raise on its own. -/
inductive Trouble where
  | value
  | runtime
  | connection
  /-- an error of the container service -/
  | service
  /-- an error that the container service answers with -/
  | serviceAnswer
  /-- a request to the container service that failed -/
  | request
  /-- a container service that cannot be reached -/
  | requestConnection
  /-- any other exception, by its kind -/
  | other (kind : String)
  deriving DecidableEq

namespace Trouble

/-- The kind under which the exception is reported. -/
def kind : Trouble → String
  | value => "ValueError"
  | runtime => "RuntimeError"
  | connection | requestConnection => "ConnectionError"
  | service => "DockerException"
  | serviceAnswer => "APIError"
  | request => "RequestException"
  | other kind => kind

/-- Whether the exception comes from the container service or the way to it. -/
def isService : Trouble → Bool
  | service | serviceAnswer | request | requestConnection => true
  | _ => false

/-- Whether the exception is an error of the operating system. -/
def isSystem : Trouble → Bool
  | connection | serviceAnswer | request | requestConnection => true
  | _ => false

end Trouble

/-- How a run goes on once it was asked for. -/
inductive Fate where
  | ends
  /-- it has not ended when the timeout strikes -/
  | hangs
  /-- it has not ended when the poll loop is stopped -/
  | interrupted
  /-- a local process cannot be started -/
  | refused (reason : Text)
  | raises (trouble : Trouble) (message : Text)
  deriving DecidableEq

/-- What one run of a program does. -/
structure Run where
  exit : Int := 0
  out : Octets := []
  err : Octets := []
  fate : Fate := .ends
  deriving DecidableEq

/-- A container as the container service hands it out. -/
abbrev Container := Nat

/-- How the container service answers, also to being addressed for the first time. -/
inductive Lookup where
  | found (container : Container)
  | notFound
  | unavailable
  deriving DecidableEq

/-- A call that leaves the monitor. -/
inductive Call where
  /-- a local process is started -/
  | spawn (command : List Text)
  /-- it is killed -/
  | kill
  /-- the container service is addressed for the first time -/
  | connect
  /-- a container is looked up -/
  | find (container : Text)
  /-- a command is run in a container -/
  | exec (container : Container) (command : List Text)
  /-- the connection to the container service is closed -/
  | disconnect
  deriving DecidableEq

/-- The outcomes to come, and the calls so far. The last outcome repeats. -/
structure World where
  runs : List Run := []
  lookups : List Lookup := []
  calls : List Call := []
  deriving DecidableEq

namespace World

/-- The next of some outcomes and those that remain; the last one repeats, and without any there is
a usual one. -/
def next {α : Type} (usual : α) : List α → α × List α
  | [] => (usual, [])
  | [a] => (a, [a])
  | a :: as => (a, as)

/-- A call is made. -/
def note (w : World) (c : Call) : World := { w with calls := w.calls ++ [c] }

/-- A run is asked for by that call. -/
def run (w : World) (c : Call) : Run × World :=
  let (r, runs) := next {} w.runs
  (r, { w with runs }.note c)

/-- The container service is asked by that call. -/
def lookup (w : World) (c : Call) : Lookup × World :=
  let (l, lookups) := next (.found 0) w.lookups
  (l, { w with lookups }.note c)

end World

end CakeMonitor
