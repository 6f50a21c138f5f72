import CakeMonitor.Poller
import CakeMonitor.Settings
/-!
# The service

Model of `build_poller`, of the `lifespan` of `create_app` and of `stream_stats` around a `StatsPoller`. The
service polls in a loop, keeps event streams for its clients and answers for its state. Its loop polls, sleeps
for the interval, and polls again until it is stopped; an error of recording ends it.

* `Settings.collector`, `Settings.poller` (`build_poller`): the collector and the poller that settings describe.
* `Service.poll` (`poll_once`), `Service.cycle` (`run`), `Service.start`, `Service.resume`, `Service.stop`: the
  loop.
* `Service.openStream`, `Service.ask`, `Service.look`, `Service.closeStream` (`stream_stats`): event streams. A
  stream begins with the latest snapshots, if there are any, and goes on with what its feed holds.
* `Service.nextEvent`: what a client gets that asks and waits.

Real time is left out: the clock is part of the state, and a client looks as often as it is told.
-/

namespace CakeMonitor

/-- What the poll loop is doing. -/
inductive PollLoop where
  /-- it was not started, or was stopped -/
  | stopped
  /-- it sleeps until the next poll -/
  | asleep
  /-- an error of recording ended it -/
  | broken
  deriving DecidableEq

/-- A client's event stream. -/
structure EventStream where
  feed : Nat
  /-- whether the first event was asked for -/
  started : Bool := false
  deriving DecidableEq

/-- The state of the service and of the world around it. -/
structure Service where
  collector : Collector
  poller : Poller
  site : Site := {}
  clock : Timestamp := 0
  /-- how far the clock goes on while the loop sleeps -/
  sleep : Int := 1000
  loop : PollLoop := .stopped
  /-- the feeds of named subscribers -/
  subscriptions : List (Text × Nat) := []
  streams : List (Text × EventStream) := []
  /-- the settings of the application, while it is open and after -/
  application : Option Settings := none
  deriving DecidableEq

namespace Settings

/-- The executor that the settings describe; an empty container name is none. -/
def executor (s : Settings) : Executor :=
  { program := s.program, container := s.container.filter (· ≠ []), timeout := s.timeout }

/-- The collector that the settings describe; the mode `auto` asks the program once. -/
def collector (s : Settings) (now : Timestamp) : Act Collector := do
  let json ← match s.json with
    | .off => pure false
    | .on => pure true
    | .auto => s.executor.supportsJson now
  return { executor := s.executor, json }

/-- The poller that the settings describe. -/
def poller (s : Settings) : Poller :=
  { interval := s.pollInterval, history := Store.empty s.historySize }

end Settings

namespace Service

/-- Whether the loop runs. -/
def isRunning (s : Service) : Bool := s.loop = .asleep

/-- Whether the loop runs and its latest success is recent. -/
def isHealthy (s : Service) : Bool := s.isRunning && !s.poller.isStale s.clock

/-- What is collected at that time, or why nothing is, and the site after it. -/
def collected (s : Service) (now : Timestamp) : Except Failure (List Snapshot) × Site :=
  match (s.collector.collect now).run s.site with
  | .ok stats site => (.ok stats, site)
  | .error e site => (.error e, site)

/-- One poll: collect, then record and publish. -/
def poll (s : Service) : Service × PollResult :=
  let collected := s.collected s.clock
  let taken := s.poller.take s.clock collected.1
  ({ s with site := collected.2, poller := taken.1 }, taken.2)

/-- That many polls of the loop, each followed by the sleep. A failed recording ends the loop, and so
does a stop while the program runs. -/
def cycle : Nat → Service → Service
  | 0, s => { s with loop := .asleep }
  | n + 1, s =>
    match s.poll with
    | (s, .broken _) => { s with loop := .broken }
    | (s, .stopped) => { s with loop := .stopped }
    | (s, _) => cycle n { s with clock := s.clock + s.sleep }

/-- Start the loop and let it poll that often, unless it runs. -/
def start (s : Service) (polls : Nat) : Service := if s.isRunning then s else cycle polls s

/-- Let the running loop poll that often again. -/
def resume (s : Service) (polls : Nat) : Service := if s.isRunning then cycle polls s else s

/-- Stop the loop. -/
def stop (s : Service) : Service := { s with loop := .stopped }

/-- The value of the latest entry with that name. -/
def named? {α : Type} (name : Text) (entries : List (Text × α)) : Option α :=
  (entries.find? fun e => e.1 = name).map (·.2)

/-- Subscribe under a name. -/
def subscribe (s : Service) (name : Text) : Service :=
  { s with poller := s.poller.subscribe
           subscriptions := (name, s.poller.feeds.length) :: s.subscriptions }

/-- End the subscription of that name, if there is one. -/
def unsubscribe (s : Service) (name : Text) : Service :=
  match named? name s.subscriptions with
  | some feed => { s with poller := s.poller.unsubscribe feed }
  | none => s

/-- Take all that the feed of that name holds. -/
def drain (s : Service) (name : Text) : Service × List Response :=
  match named? name s.subscriptions with
  | some feed =>
    let held := s.poller.held feed
    ({ s with poller := s.poller.drop feed held.length }, held)
  | none => (s, [])

/-- Open a stream under a name. It is subscribed at once. -/
def openStream (s : Service) (name : Text) : Service :=
  { s with poller := s.poller.subscribe
           streams := (name, { feed := s.poller.feeds.length }) :: s.streams }

/-- The stream of that name is no more. -/
def removeStream (s : Service) (name : Text) : Service :=
  { s with streams := s.streams.filter fun e => e.1 ≠ name }

/-- Close a stream. One that never started keeps its subscription. -/
def closeStream (s : Service) (name : Text) : Service :=
  match named? name s.streams with
  | some stream =>
    let s := s.removeStream name
    if stream.started then { s with poller := s.poller.unsubscribe stream.feed } else s
  | none => s

/-- The client of a stream asks for an event. The first time it gets the latest snapshots, if there are
any; otherwise it waits. -/
def ask (s : Service) (name : Text) : Service × Option Response :=
  match named? name s.streams with
  | none => (s, none)
  | some stream =>
    let started : Service :=
      { s with streams := (name, { stream with started := true }) :: (s.removeStream name).streams }
    (started,
      if !stream.started && s.poller.latest ≠ [] then some (s.poller.response s.clock) else none)

/-- While its client waits, a stream looks whether the client stays, and then for a response in its
feed. A client that has left ends the stream. -/
def look (s : Service) (name : Text) (stays : Bool) : Service × Option Response :=
  match named? name s.streams with
  | none => (s, none)
  | some stream =>
    if !stream.started then (s, none)
    else if !stays then (s.closeStream name, none)
    else
      match s.poller.held stream.feed with
      | [] => (s, none)
      | r :: _ => ({ s with poller := s.poller.drop stream.feed 1 }, some r)

/-- Look until there is a response; the client leaves after that many looks in vain. -/
def await (name : Text) : Nat → Service → Service × Option Response
  | 0, s => s.look name false
  | checks + 1, s =>
    match s.look name true with
    | (s, some r) => (s, some r)
    | (s, none) => await name checks s

/-- The next event of a stream, or none when the stream ends or has ended. -/
def nextEvent (s : Service) (name : Text) (checks : Nat) : Service × Option Response :=
  match s.ask name with
  | (s, some r) => (s, some r)
  | (s, none) => await name checks s

/-- Open the application with these settings and start the loop. -/
def openApplication (s : Service) (settings : Settings) (polls : Nat) : Service :=
  { s with application := some settings }.start polls

/-- Close the application: the loop stops and the connection to the container service is closed. -/
def closeApplication (s : Service) : Service :=
  match Site.close.run s.site with
  | .ok _ site | .error _ site => { s.stop with site }

end Service

end CakeMonitor
