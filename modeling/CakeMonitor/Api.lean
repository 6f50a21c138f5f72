import CakeMonitor.Service
/-!
# The web interface

Model of `root`, `health_check`, `get_stats` and `get_history`, and of the events of `stream_stats`: what the
service answers to requests. Of the web framework there is what these answers show: the status, the allowed
origin, and how times and reals are written.

* `Api.answer`: status, body and allowed origin for a request.
* `Api.health` (`health_check`): the state of the service.
* `Api.statistics`: the latest snapshots, as they are sent in answers and in events.
-/

namespace CakeMonitor.Api

/-- A request. -/
structure Request where
  method : Text := "GET"
  path : Text
  /-- the page that the request comes from, if it tells -/
  origin : Option Text := none
  deriving DecidableEq

/-- An answer. -/
structure Answer where
  status : Nat
  body : Json
  /-- the origin that may read the answer -/
  allowedOrigin : Option Text := none

/-- What the service is and where it answers. -/
def overview : Json :=
  .obj [("service", .text "CAKE Stats Backend"), ("version", .text "0.1.0"),
    ("endpoints", .obj [("docs", .text "/docs"), ("health", .text "/api/health"),
      ("stats", .text "/api/stats"), ("history", .text "/api/history"),
      ("stream", .text "/api/stats/stream")])]

/-- The state of the service. -/
def health (s : Service) : Json :=
  .obj [("status", .text (if s.isHealthy then "healthy" else "degraded")),
    ("service", .text "cake-stats"),
    ("interfaces", .int s.poller.latest.length),
    ("polling", .bool s.isRunning),
    ("last_poll", (s.poller.lastSuccess.map fun t => .text (Time.toSeconds t)).getD .null),
    ("last_error", (s.poller.lastError.map .text).getD .null)]

/-- A response as it is sent; a real that is not finite is sent as null. -/
def statistics (r : Response) : Json :=
  (r.toJson fun t => .text (Time.toMicros t)).withoutInfinite

/-- The bodies by their paths. -/
def body? (s : Service) (path : Text) : Option Json :=
  if path = "/" then some overview
  else if path = "/api/health" then some (health s)
  else if path = "/api/stats" then some (statistics (s.poller.response s.clock))
  else if path = "/api/history" then some s.poller.history.toJson.withoutInfinite
  else none

/-- A body that tells what is wrong. -/
def detail (t : String) : Json := .obj [("detail", .text t)]

/-- Whether pages of that origin may read answers; `*` stands for all. -/
def allows (origins : List Text) (origin : Text) : Bool :=
  ("*" : Text) ∈ origins || origin ∈ origins

/-- The answer to a request. -/
def answer (s : Service) (r : Request) : Answer :=
  let origins := (s.application.getD {}).corsOrigins
  let allowedOrigin := r.origin.filter (allows origins)
  match body? s r.path with
  | none => { status := 404, body := detail "Not Found", allowedOrigin }
  | some body =>
    if r.method = "GET" then { status := 200, body, allowedOrigin }
    else { status := 405, body := detail "Method Not Allowed", allowedOrigin }

/-- How long a client waits before it connects again, in milliseconds. -/
def retryDelay : Int := 2000

/-- An event of a stream. -/
def event (r : Response) : Json :=
  .obj [("event", .text "stats"), ("retry", .int retryDelay), ("data", statistics r)]

end CakeMonitor.Api
