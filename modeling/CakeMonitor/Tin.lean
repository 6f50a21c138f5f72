import CakeMonitor.Json.Value
/-!
# Tins

Model of `QueueTier`. A CAKE queue sorts packets into tins by priority. For each tin a report prints figures
with their units, kept as text, and counters.

* `TinLabel`, `TinCounter`: the figures and the counters by name.
* `sumOf`: the sum of some counts.
* `Tin`: the statistics of one tin; `Tin.label` and `Tin.count` look one up by its name.
-/

namespace CakeMonitor

/-- A figure of a tin that keeps the unit it was printed with. -/
inductive TinLabel where
  | thresh
  | target
  | interval
  | pkDelay
  | avDelay
  | spDelay
  | backlog
  deriving DecidableEq

namespace TinLabel

/-- All figures in the order of a record. -/
def all : List TinLabel := [thresh, target, interval, pkDelay, avDelay, spDelay, backlog]

theorem mem_all (l : TinLabel) : l ∈ all := by cases l <;> decide

/-- The word that begins the row of the figure in a report. -/
def keyword : TinLabel → String
  | thresh => "thresh"
  | target => "target"
  | interval => "interval"
  | pkDelay => "pk_delay"
  | avDelay => "av_delay"
  | spDelay => "sp_delay"
  | backlog => "backlog"

end TinLabel

/-- A counter of a tin. -/
inductive TinCounter where
  | pkts
  | bytes
  | wayInds
  | wayMiss
  | wayCols
  | drops
  | marks
  | ackDrop
  | spFlows
  | bkFlows
  | unFlows
  | maxLen
  | quantum
  deriving DecidableEq

namespace TinCounter

/-- All counters in the order of a record. -/
def all : List TinCounter :=
  [pkts, bytes, wayInds, wayMiss, wayCols, drops, marks, ackDrop, spFlows, bkFlows, unFlows, maxLen,
   quantum]

theorem mem_all (c : TinCounter) : c ∈ all := by cases c <;> decide

/-- The word that begins the row of the counter in a report. -/
def keyword : TinCounter → String
  | pkts => "pkts"
  | bytes => "bytes"
  | wayInds => "way_inds"
  | wayMiss => "way_miss"
  | wayCols => "way_cols"
  | drops => "drops"
  | marks => "marks"
  | ackDrop => "ack_drop"
  | spFlows => "sp_flows"
  | bkFlows => "bk_flows"
  | unFlows => "un_flows"
  | maxLen => "max_len"
  | quantum => "quantum"

end TinCounter

/-- The figures of a tin. -/
structure TinLabels where
  thresh : Text := []
  target : Text := []
  interval : Text := []
  pkDelay : Text := []
  avDelay : Text := []
  spDelay : Text := []
  backlog : Text := []
  deriving DecidableEq

namespace TinLabels

/-- A figure by its name. -/
def get (t : TinLabels) : TinLabel → Text
  | .thresh => t.thresh
  | .target => t.target
  | .interval => t.interval
  | .pkDelay => t.pkDelay
  | .avDelay => t.avDelay
  | .spDelay => t.spDelay
  | .backlog => t.backlog

/-- The figures that a function gives. -/
def ofFn (f : TinLabel → Text) : TinLabels :=
  ⟨f .thresh, f .target, f .interval, f .pkDelay, f .avDelay, f .spDelay, f .backlog⟩

@[simp] theorem get_ofFn (f : TinLabel → Text) (l : TinLabel) : (ofFn f).get l = f l := by
  cases l <;> rfl

@[simp] theorem ofFn_get (t : TinLabels) : ofFn t.get = t := rfl

end TinLabels

/-- The sum of some counts. -/
def sumOf (counts : List Int) : Int := counts.foldr (· + ·) 0

/-- The counters of a tin. -/
structure TinCounters where
  pkts : Int := 0
  bytes : Int := 0
  wayInds : Int := 0
  wayMiss : Int := 0
  wayCols : Int := 0
  drops : Int := 0
  marks : Int := 0
  ackDrop : Int := 0
  spFlows : Int := 0
  bkFlows : Int := 0
  unFlows : Int := 0
  maxLen : Int := 0
  quantum : Int := 0
  deriving DecidableEq

namespace TinCounters

/-- A counter by its name. -/
def get (t : TinCounters) : TinCounter → Int
  | .pkts => t.pkts
  | .bytes => t.bytes
  | .wayInds => t.wayInds
  | .wayMiss => t.wayMiss
  | .wayCols => t.wayCols
  | .drops => t.drops
  | .marks => t.marks
  | .ackDrop => t.ackDrop
  | .spFlows => t.spFlows
  | .bkFlows => t.bkFlows
  | .unFlows => t.unFlows
  | .maxLen => t.maxLen
  | .quantum => t.quantum

/-- The counters that a function gives. -/
def ofFn (f : TinCounter → Int) : TinCounters :=
  ⟨f .pkts, f .bytes, f .wayInds, f .wayMiss, f .wayCols, f .drops, f .marks, f .ackDrop,
   f .spFlows, f .bkFlows, f .unFlows, f .maxLen, f .quantum⟩

@[simp] theorem get_ofFn (f : TinCounter → Int) (c : TinCounter) : (ofFn f).get c = f c := by
  cases c <;> rfl

@[simp] theorem ofFn_get (t : TinCounters) : ofFn t.get = t := rfl

/-- The counters with one of them replaced. -/
def set (t : TinCounters) (c : TinCounter) (n : Int) : TinCounters :=
  ofFn fun d => if d = c then n else t.get d

theorem get_set (t : TinCounters) (c d : TinCounter) (n : Int) :
    (t.set c n).get d = if d = c then n else t.get d := by simp [set]

/-- The counters that a function gives, read in the order of a record; the first error wins. -/
def read {ε : Type} (f : TinCounter → Except ε Int) : Except ε TinCounters :=
  TinCounter.all.foldlM (fun t c => (f c).map (t.set c)) {}

end TinCounters

/-- The statistics of one tin. -/
structure Tin where
  name : Text := []
  labels : TinLabels := {}
  counters : TinCounters := {}
  deriving DecidableEq

namespace Tin

/-- A figure of the tin. -/
def label (t : Tin) (l : TinLabel) : Text := t.labels.get l

/-- A counter of the tin. -/
def count (t : Tin) (c : TinCounter) : Int := t.counters.get c

/-- The tin as a JSON object. -/
def toJson (t : Tin) : Json :=
  .obj <| ("name", .text t.name)
    :: (TinLabel.all.map fun l => (l.keyword, .text (t.label l)))
    ++ (TinCounter.all.map fun c => (c.keyword, .int (t.count c)))

end Tin

end CakeMonitor
