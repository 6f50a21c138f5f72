import CakeMonitor.Service
/-!
# The tasks of the poll loop

Model of `StatsPoller.start`, `run`, `stop` and `running` with the tasks that they make. `Service` says what one
poll after another does. Who makes the polls is a task: a start makes one unless the task of the last start is
still alive, and the task polls and sleeps in turn until it is cancelled or cannot record a poll. A poll waits
for its program only, and records and publishes in one go when it has collected, so its end is one event. A stop
cancels the task of the last start, wherever it is, and returns when it is over. Starts and stops come one after
another.

* `Activity`, `Tasks`: what a task is doing, and the service with all its tasks.
* `Tasks.start`, `Tasks.stop?`: start and stop.
* `Tasks.begin?`, `Tasks.finish?`: a task begins a poll and comes to its end.
* `Tasks.handle?`, `Tasks.run?`: one event and several.
-/

namespace CakeMonitor

/-- What a task of the loop is doing. -/
inductive Activity where
  /-- it was made and has not begun -/
  | ready
  | polling
  | asleep
  /-- it was cancelled, or ended with an error -/
  | ended
  deriving DecidableEq

/-- The service with the tasks of its loop. -/
structure Tasks where
  service : Service
  /-- what all tasks so far are doing, by their numbers -/
  activities : List Activity := []
  /-- the task of the last start, unless a stop has returned since -/
  current : Option Nat := none
  deriving DecidableEq

/-- The service when the next runs and look-ups turn out so. -/
def Service.facing (s : Service) (runs : List Run) (lookups : List Lookup) : Service :=
  { s with site.world.runs := runs, site.world.lookups := lookups }

namespace Tasks

/-- What the task of that number is doing. -/
def activity (w : Tasks) (k : Nat) : Activity := w.activities[k]?.getD .ended

/-- Whether the task of that number is alive. -/
def isAlive (w : Tasks) (k : Nat) : Bool := w.activity k ≠ .ended

/-- Whether the task of the last start is alive. -/
def isRunning (w : Tasks) : Bool := w.current.any w.isAlive

/-- The task of that number does something else now. -/
def turnTo (w : Tasks) (k : Nat) (a : Activity) : Tasks :=
  { w with activities := w.activities.set k a }

/-- Make a task, unless the last one is alive. -/
def start (w : Tasks) : Tasks :=
  if w.isRunning then w
  else { service := w.service.start 0, activities := w.activities ++ [.ready]
         current := some w.activities.length }

/-- A task begins a poll. -/
def begin? (w : Tasks) (k : Nat) : Option Tasks :=
  match w.activity k with
  | .ready | .asleep => some (w.turnTo k .polling)
  | .polling | .ended => none

/-- The poll of a task comes to its end, when its runs and look-ups turn out so. -/
def finish? (w : Tasks) (k : Nat) (runs : List Run) (lookups : List Lookup) : Option Tasks :=
  match w.activity k with
  | .polling =>
    match (w.service.facing runs lookups).poll with
    | (service, .completed) | (service, .skipped) => some ({ w with service }.turnTo k .asleep)
    | (service, .broken _) =>
      some ({ w with service := { service with loop := .broken } }.turnTo k .ended)
    | (_, .stopped) => none
  | .ready | .asleep | .ended => none

/-- Cancel the task of the last start. A poll under way is cut off, when its runs and look-ups turn out so
that far. -/
def stop? (w : Tasks) (runs : List Run) (lookups : List Lookup) : Option Tasks :=
  match w.current with
  | none => some w
  | some k =>
    match w.activity k with
    | .polling =>
      match (w.service.facing runs lookups).poll with
      | (service, .stopped) => some { w.turnTo k .ended with service := service.stop, current := none }
      | (_, .completed) | (_, .skipped) | (_, .broken _) => none
    | .ready | .asleep | .ended =>
      some { w.turnTo k .ended with service := w.service.stop, current := none }

/-- What can happen. -/
inductive Event where
  | start
  | stop (runs : List Run) (lookups : List Lookup)
  | clock (t : Timestamp)
  | beginPoll (task : Nat)
  | endPoll (task : Nat) (runs : List Run) (lookups : List Lookup)
  deriving DecidableEq

/-- The tasks after an event, if it can happen. -/
def handle? (w : Tasks) : Event → Option Tasks
  | .start => some w.start
  | .stop runs lookups => w.stop? runs lookups
  | .clock t => some { w with service.clock := t }
  | .beginPoll k => w.begin? k
  | .endPoll k runs lookups => w.finish? k runs lookups

/-- The tasks after some events, if they can happen. -/
def run? (w : Tasks) (events : List Event) : Option Tasks := events.foldlM handle? w

end Tasks

end CakeMonitor
