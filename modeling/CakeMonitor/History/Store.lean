import CakeMonitor.History.Ring
import CakeMonitor.Quantity
import CakeMonitor.Snapshot
/-!
# Rates and their history

Model of `HistoryStore`, with `IfaceState`, `HistorySample`, `tx_bytes`, `max_delay_ms` and `_rate`. Counters
say how much a queue has sent since it was set up; what one wants to see is how much it sends per second. A
store remembers the counters of each interface at the last poll, derives rates from the next one, and keeps a
bounded series of them.

* `Snapshot.txBytes` (`tx_bytes`), `Tin.maxDelay` (`max_delay_ms`), `growth` (`_rate`): what samples are made
  of.
* `Sample`: one point of the series.
* `Store.observe`: what one snapshot adds.
* `Store.record` (`record`): a whole poll: all its snapshots in order, and interfaces that are gone are
  forgotten. An error ends it where it occurs; what came before stays.
* `Store.series` (`snapshot`): the series of each interface that has one.

The lock around both is `LockState`, and the clock is handed in.
-/

namespace CakeMonitor

/-- The bytes a queue has sent: the counter of the whole queue, or the sum over its tins when that
counter is zero. -/
def Snapshot.txBytes (s : Snapshot) : Int :=
  if s.totals.sentBytes ≠ 0 then s.totals.sentBytes else sumOf (s.tins.map (·.count .bytes))

/-- The largest of a delay of the tins in milliseconds, zero without tins. -/
def Tin.maxDelay (delay : TinLabel) (tins : List Tin) : Binary64 :=
  match tins.map fun t => Delay.milliseconds (t.label delay) with
  | [] => .zero
  | d :: ds => Binary64.maximum d ds

/-- The growth of a counter per second; a counter that is lower than before was reset. -/
def growth (current previous : Int) (elapsed : Binary64) : Except NumberError Binary64 :=
  if current < previous then .ok .zero
  else do (← Binary64.ofInt (current - previous)).quotient elapsed

/-- One point of the series of an interface. -/
structure Sample where
  /-- seconds since the beginning of 1970 -/
  time : Int
  rates : Rates := {}
  deriving DecidableEq

namespace Sample

/-- The sample as a JSON object. -/
def toJson (s : Sample) : Json :=
  .obj [("t", .int s.time), ("tx", .real s.rates.tx), ("av", .real s.rates.avDelay),
    ("pk", .real s.rates.pkDelay), ("dr", .real s.rates.drops)]

end Sample

/-- What is remembered of an interface: its counters at the last poll, and its series. -/
structure Track where
  txBytes : Int
  dropped : Int
  /-- the clock at the last poll, in seconds -/
  time : Binary64
  samples : Ring Sample
  deriving DecidableEq

/-- The tracks of all interfaces, oldest first. -/
structure Store where
  capacity : Nat
  tracks : List (Text × Track) := []
  deriving DecidableEq

/-- The least number of samples kept for an interface. -/
def minCapacity : Nat := 2

namespace Store

/-- A store without interfaces, which keeps that many samples for each, and at least two. -/
def empty (capacity : Int) : Store := { capacity := max capacity.toNat minCapacity }

/-- The track of an interface. -/
def track? (s : Store) (interface : Text) : Option Track :=
  (s.tracks.find? fun t => t.1 = interface).map (·.2)

/-- Replace the track of an interface, or add it behind the others. -/
def insert (interface : Text) (track : Track) : List (Text × Track) → List (Text × Track)
  | [] => [(interface, track)]
  | t :: ts => if t.1 = interface then (interface, track) :: ts else t :: insert interface track ts

/-- The store with that track for the interface. -/
def put (s : Store) (interface : Text) (track : Track) : Store :=
  { s with tracks := insert interface track s.tracks }

theorem find?_insert (i j : Text) (track : Track) (ts : List (Text × Track)) :
    ((insert i track ts).find? fun t => t.1 = j)
      = if i = j then some (i, track) else ts.find? fun t => t.1 = j := by
  induction ts with
  | nil => by_cases h : i = j <;> simp [insert, h]
  | cons x xs ih =>
    by_cases hx : x.1 = i
    · by_cases h : i = j <;> simp [insert, hx, h]
    · by_cases h : i = j
      · subst h; simp [insert, hx, ih]
      · simp [insert, hx, h, ih, List.find?_cons]

theorem track?_put (s : Store) (i j : Text) (track : Track) :
    (s.put i track).track? j = if i = j then some track else s.track? j := by
  by_cases h : i = j <;> simp [track?, put, find?_insert, h]

/-- The track of an interface that is seen for the first time. -/
def firstTrack (s : Store) (now : Binary64) (x : Snapshot) : Track :=
  { txBytes := x.txBytes, dropped := x.totals.dropped, time := now
    samples := Ring.empty s.capacity }

/-- The seconds since the last poll, or the nominal interval when the clock did not advance. -/
def elapsed (now last interval : Binary64) : Binary64 :=
  let measured := now.sub last
  if measured.le .zero then interval else measured

/-- What recording has done: the store and the snapshots, and the error that ended it. -/
structure Outcome (α : Type) where
  store : Store
  stats : α
  error : Option NumberError := none
  deriving DecidableEq

/-- Observe an interface again. The rates are written into the snapshot one after another, so an
error may leave some of them written; only when all are is the track renewed. -/
def update (s : Store) (now interval : Binary64) (x : Snapshot) (track : Track) :
    Outcome Snapshot :=
  let seconds := elapsed now track.time interval
  match growth x.txBytes track.txBytes seconds with
  | .error e => ⟨s, x, some e⟩
  | .ok tx =>
    let x := { x with rates.tx := tx }
    match growth x.totals.dropped track.dropped seconds with
    | .error e => ⟨s, x, some e⟩
    | .ok drops =>
      let x := { x with rates := { tx, drops
                                   avDelay := Tin.maxDelay .avDelay x.tins
                                   pkDelay := Tin.maxDelay .pkDelay x.tins } }
      match now.truncate with
      | .error e => ⟨s, x, some e⟩
      | .ok time =>
        let renewed := { txBytes := x.txBytes, dropped := x.totals.dropped, time := now
                         samples := track.samples.push { time, rates := x.rates } }
        ⟨s.put x.interface renewed, x, none⟩

/-- Observe one interface. The first time only its counters are remembered. -/
def observe (s : Store) (now interval : Binary64) (x : Snapshot) : Outcome Snapshot :=
  match s.track? x.interface with
  | none => ⟨s.put x.interface (s.firstTrack now x), x, none⟩
  | some track => s.update now interval x track

/-- Observe snapshots one after another, until an error. -/
def observeAll (s : Store) (now interval : Binary64) : List Snapshot → Outcome (List Snapshot)
  | [] => ⟨s, [], none⟩
  | x :: xs =>
    match s.observe now interval x with
    | ⟨s, x, some e⟩ => ⟨s, x :: xs, some e⟩
    | ⟨s, x, none⟩ =>
      let rest := observeAll s now interval xs
      ⟨rest.store, x :: rest.stats, rest.error⟩

/-- Forget the interfaces that are not among these. -/
def prune (s : Store) (present : List Text) : Store :=
  { s with tracks := s.tracks.filter fun t => t.1 ∈ present }

/-- Record a poll: the clock and the nominal interval are in seconds. -/
def record (s : Store) (now interval : Binary64) (stats : List Snapshot) :
    Outcome (List Snapshot) :=
  match s.observeAll now interval stats with
  | ⟨s, stats, none⟩ => ⟨s.prune (stats.map (·.interface)), stats, none⟩
  | outcome => outcome

/-- The samples of each interface that has any, oldest first. -/
def series (s : Store) : List (Text × List Sample) :=
  (s.tracks.filter fun t => t.2.samples.count ≠ 0).map fun t => (t.1, t.2.samples.toList)

/-- The series as a JSON object. -/
def toJson (s : Store) : Json :=
  .object (s.series.map fun (name, samples) => (name, .array (samples.map Sample.toJson)))

end Store

end CakeMonitor
