import CakeMonitor.Command.Collector
import CakeMonitor.History.Store
import CakeMonitor.Time
/-!
# Polling

Model of `StatsPoller` but for its task, which is `Tasks`. A poller takes what was collected, records it, keeps
it as the latest, and sends it to everyone who has subscribed. A subscriber's feed holds few responses; while
it is full it misses new ones.

* `Feed`: what waits for one subscriber.
* `Poller.take`: the end of one poll (`poll_once` behind `collect`), from what was collected or why nothing was,
  with its `PollResult`.
* `Poller.response` (`current_response`): the latest snapshots, as they are served.
* `Poller.isStale` (`is_stale`): whether the latest success is more than three intervals ago.
* `Poller.subscribe`, `Poller.unsubscribe`, `Poller.publish`: the feeds.
-/

namespace CakeMonitor

/-- The snapshots of one poll, as they are served. -/
structure Response where
  interfaces : List Snapshot
  updatedAt : Timestamp
  deriving DecidableEq

namespace Response

/-- The response as a JSON object. -/
def toJson (time : Timestamp → Json) (r : Response) : Json :=
  .obj [("interfaces", .array (r.interfaces.map (Snapshot.toJson time))),
    ("updated_at", .text (Time.toSeconds r.updatedAt))]

end Response

/-- What waits for a subscriber, oldest first. -/
structure Feed where
  held : List Response := []
  subscribed : Bool := true
  deriving DecidableEq

namespace Feed

/-- How many responses a feed holds. -/
def capacity : Nat := 4

/-- A new response; a full feed misses it. -/
def offer (r : Response) (f : Feed) : Feed :=
  if f.subscribed && f.held.length < capacity then { f with held := f.held ++ [r] } else f

end Feed

/-- How a poll ended. -/
inductive PollResult where
  | completed
  /-- nothing was collected -/
  | skipped
  /-- the loop was stopped meanwhile -/
  | stopped
  /-- recording failed -/
  | broken (e : NumberError)
  deriving DecidableEq

/-- The state of polling. -/
structure Poller where
  /-- the nominal interval in seconds -/
  interval : Binary64
  history : Store
  latest : List Snapshot := []
  lastSuccess : Option Timestamp := none
  lastError : Option Text := none
  /-- the feeds of all subscribers so far, by their numbers -/
  feeds : List Feed := []
  deriving DecidableEq

namespace Poller

/-- The latest snapshots with the time of the last success, or of now before the first. -/
def response (p : Poller) (now : Timestamp) : Response :=
  { interfaces := p.latest, updatedAt := p.lastSuccess.getD now }

/-- Send a response to all subscribers. -/
def publish (p : Poller) (r : Response) : Poller := { p with feeds := p.feeds.map (Feed.offer r) }

/-- How a failure of collecting is remembered: that of a command by its message, others with their
kind. -/
def describe : Failure → Text
  | .command e => e.message
  | other => Text.ofString other.kind ++ (": " : Text) ++ other.message

/-- The end of a poll. A skipped one leaves everything but the description of the failure, and a
stopped one everything. When recording fails, the history keeps what was recorded before, and nothing
else changes. -/
def take (p : Poller) (now : Timestamp) : Except Failure (List Snapshot) → Poller × PollResult
  | .error .stopped => (p, .stopped)
  | .error e => ({ p with lastError := some (describe e) }, .skipped)
  | .ok stats =>
    match Time.seconds now with
    | .error e => (p, .broken e)
    | .ok clock =>
      match p.history.record clock p.interval stats with
      | ⟨history, _, some e⟩ => ({ p with history }, .broken e)
      | ⟨history, stats, none⟩ =>
        let p := { p with history, latest := stats, lastSuccess := some now, lastError := none }
        (p.publish (p.response now), .completed)

/-- Three. -/
def three : Binary64 := .ofNat 3

/-- Whether more than three intervals have passed since the last success, if there was one. -/
def isStale (p : Poller) (now : Timestamp) : Bool :=
  match p.lastSuccess with
  | none => true
  | some last => (three.mul p.interval).lt (.ofRatio (now - last) 1000)

/-- A new feed; its number is the number of feeds before. -/
def subscribe (p : Poller) : Poller := { p with feeds := p.feeds ++ [{}] }

/-- Change one feed. -/
def updateFeed (p : Poller) (n : Nat) (f : Feed → Feed) : Poller :=
  { p with feeds := p.feeds.modify n f }

/-- The feed gets nothing any more, and keeps what it holds. -/
def unsubscribe (p : Poller) (n : Nat) : Poller :=
  p.updateFeed n fun f => { f with subscribed := false }

/-- What a feed holds. -/
def held (p : Poller) (n : Nat) : List Response := (p.feeds[n]?.map (·.held)).getD []

/-- Take the oldest responses out of a feed. -/
def drop (p : Poller) (n count : Nat) : Poller :=
  p.updateFeed n fun f => { f with held := f.held.drop count }

/-- How many feeds are subscribed. -/
def subscribers (p : Poller) : Nat := (p.feeds.filter (·.subscribed)).length

end Poller

end CakeMonitor
