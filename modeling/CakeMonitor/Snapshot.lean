import CakeMonitor.Tin
/-!
# Snapshots

Model of `InterfaceSnapshot`: what one report says about one CAKE queueing discipline, that is, about one
logical interface.

* `Totals`: the counters of the whole queue, by name with `Total`.
* `Options`: how the queue is configured; `OptionChange` is one word of a header that sets an option.
* `PacketSizes`, `Rates`: sizes seen on the link, and what follows from two successive reports.
* `Snapshot`: all of it.
-/

namespace CakeMonitor

/-- A point of time in milliseconds since the beginning of 1970. -/
abbrev Timestamp := Int

/-- A counter of the whole queue. -/
inductive Total where
  | sentBytes
  | sentPkts
  | dropped
  | overlimits
  | requeues
  | backlogPkts
  deriving DecidableEq

namespace Total

/-- All counters. -/
def all : List Total := [sentBytes, sentPkts, dropped, overlimits, requeues, backlogPkts]

theorem mem_all (t : Total) : t ∈ all := by cases t <;> decide

/-- The key of the counter in a record. -/
def key : Total → String
  | sentBytes => "sent_bytes"
  | sentPkts => "sent_pkts"
  | dropped => "dropped"
  | overlimits => "overlimits"
  | requeues => "requeues"
  | backlogPkts => "backlog_pkts"

end Total

/-- The counters of the whole queue. -/
structure Totals where
  sentBytes : Int := 0
  sentPkts : Int := 0
  dropped : Int := 0
  overlimits : Int := 0
  requeues : Int := 0
  backlogPkts : Int := 0
  deriving DecidableEq

namespace Totals

/-- A counter by its name. -/
def get (t : Totals) : Total → Int
  | .sentBytes => t.sentBytes
  | .sentPkts => t.sentPkts
  | .dropped => t.dropped
  | .overlimits => t.overlimits
  | .requeues => t.requeues
  | .backlogPkts => t.backlogPkts

/-- The counters that a function gives. -/
def ofFn (f : Total → Int) : Totals :=
  ⟨f .sentBytes, f .sentPkts, f .dropped, f .overlimits, f .requeues, f .backlogPkts⟩

@[simp] theorem get_ofFn (f : Total → Int) (c : Total) : (ofFn f).get c = f c := by cases c <;> rfl

@[simp] theorem ofFn_get (t : Totals) : ofFn t.get = t := rfl

/-- The counters with one of them replaced. -/
def set (t : Totals) (c : Total) (n : Int) : Totals := ofFn fun d => if d = c then n else t.get d

theorem get_set (t : Totals) (c d : Total) (n : Int) :
    (t.set c n).get d = if d = c then n else t.get d := by simp [set]

/-- The counters with some of them replaced, in order. -/
def setAll (t : Totals) (changes : List (Total × Int)) : Totals :=
  changes.foldl (fun t c => t.set c.1 c.2) t

end Totals

/-- An option whose value is text. -/
inductive TextOption where
  | direction
  | bandwidth
  | diffservMode
  | rtt
  | overhead
  | atmMode
  | mpu
  | flowMode
  | fwmarkMask
  | memlimit
  deriving DecidableEq

namespace TextOption

/-- All of them. -/
def all : List TextOption :=
  [direction, bandwidth, diffservMode, rtt, overhead, atmMode, mpu, flowMode, fwmarkMask, memlimit]

theorem mem_all (o : TextOption) : o ∈ all := by cases o <;> decide

/-- The key of the option in a record. -/
def key : TextOption → String
  | direction => "direction"
  | bandwidth => "bandwidth"
  | diffservMode => "diffserv_mode"
  | rtt => "rtt"
  | overhead => "overhead"
  | atmMode => "atm_mode"
  | mpu => "mpu"
  | flowMode => "flow_mode"
  | fwmarkMask => "fwmark_mask"
  | memlimit => "memlimit"

end TextOption

/-- An option that is on or off. -/
inductive Switch where
  | nat
  | wash
  deriving DecidableEq

namespace Switch

/-- Both of them. -/
def all : List Switch := [nat, wash]

theorem mem_all (s : Switch) : s ∈ all := by cases s <;> decide

/-- The key of the switch in a record. -/
def key : Switch → String
  | nat => "nat_enabled"
  | wash => "wash_enabled"

end Switch

/-- How a queue is configured. -/
structure Options where
  direction : Text := "egress"
  bandwidth : Text := []
  diffservMode : Text := []
  rtt : Text := []
  overhead : Text := []
  atmMode : Text := []
  mpu : Text := []
  flowMode : Text := []
  fwmarkMask : Text := []
  memlimit : Text := []
  nat : Bool := false
  wash : Bool := false
  deriving DecidableEq

/-- One option set to a value. -/
inductive OptionChange where
  | text (option : TextOption) (value : Text)
  | switch (switch : Switch) (on : Bool)
  deriving DecidableEq

namespace Options

/-- The value of a text option. -/
def text (o : Options) : TextOption → Text
  | .direction => o.direction
  | .bandwidth => o.bandwidth
  | .diffservMode => o.diffservMode
  | .rtt => o.rtt
  | .overhead => o.overhead
  | .atmMode => o.atmMode
  | .mpu => o.mpu
  | .flowMode => o.flowMode
  | .fwmarkMask => o.fwmarkMask
  | .memlimit => o.memlimit

/-- The position of a switch. -/
def isOn (o : Options) : Switch → Bool
  | .nat => o.nat
  | .wash => o.wash

/-- The options that two functions give. -/
def ofFn (text : TextOption → Text) (isOn : Switch → Bool) : Options :=
  ⟨text .direction, text .bandwidth, text .diffservMode, text .rtt, text .overhead, text .atmMode,
   text .mpu, text .flowMode, text .fwmarkMask, text .memlimit, isOn .nat, isOn .wash⟩

@[simp] theorem text_ofFn (f : TextOption → Text) (g : Switch → Bool) (k : TextOption) :
    (ofFn f g).text k = f k := by cases k <;> rfl

@[simp] theorem isOn_ofFn (f : TextOption → Text) (g : Switch → Bool) (k : Switch) :
    (ofFn f g).isOn k = g k := by cases k <;> rfl

@[simp] theorem ofFn_text_isOn (o : Options) : ofFn o.text o.isOn = o := rfl

/-- The options with one of them set. -/
def set (o : Options) : OptionChange → Options
  | .text k v => ofFn (fun j => if j = k then v else o.text j) o.isOn
  | .switch k b => ofFn o.text fun j => if j = k then b else o.isOn j

theorem text_set (o : Options) (k : OptionChange) (j : TextOption) :
    (o.set k).text j = match k with
      | .text i v => if j = i then v else o.text j
      | .switch _ _ => o.text j := by
  cases k <;> simp [set]

theorem isOn_set (o : Options) (k : OptionChange) (j : Switch) :
    (o.set k).isOn j = match k with
      | .text _ _ => o.isOn j
      | .switch i b => if j = i then b else o.isOn j := by
  cases k <;> simp [set]

/-- The options with some of them set, in order. -/
def setAll (o : Options) (changes : List OptionChange) : Options := changes.foldl set o

end Options

/-- The packet sizes that a queue has seen, as they were printed. -/
structure PacketSizes where
  minNet : Text := []
  maxNet : Text := []
  minAdjusted : Text := []
  maxAdjusted : Text := []
  headerOffset : Text := []
  deriving DecidableEq

/-- What follows from two successive snapshots of a queue. -/
structure Rates where
  /-- bytes sent per second -/
  tx : Binary64 := .zero
  /-- packets dropped per second -/
  drops : Binary64 := .zero
  /-- the largest average delay of a tin in milliseconds -/
  avDelay : Binary64 := .zero
  /-- the largest peak delay of a tin in milliseconds -/
  pkDelay : Binary64 := .zero
  deriving DecidableEq

/-- The statistics of one queueing discipline at one time. -/
structure Snapshot where
  interface : Text := []
  handle : Text := []
  rawHeader : Text := []
  updatedAt : Timestamp := 0
  options : Options := {}
  totals : Totals := {}
  backlogBytes : Text := []
  memoryUsed : Text := []
  memoryTotal : Text := []
  capacityEstimate : Text := []
  sizes : PacketSizes := {}
  tins : List Tin := []
  rates : Rates := {}
  deriving DecidableEq

namespace Snapshot

/-- The snapshot as a JSON object, given how its time is written. -/
def toJson (time : Timestamp → Json) (s : Snapshot) : Json :=
  .obj <|
    [("interface", .text s.interface), ("handle", .text s.handle),
     ("raw_header", .text s.rawHeader), ("updated_at", time s.updatedAt),
     ("backlog_bytes", .text s.backlogBytes), ("memory_used", .text s.memoryUsed),
     ("memory_total", .text s.memoryTotal), ("capacity_estimate", .text s.capacityEstimate),
     ("min_net_size", .text s.sizes.minNet), ("max_net_size", .text s.sizes.maxNet),
     ("min_adj_size", .text s.sizes.minAdjusted), ("max_adj_size", .text s.sizes.maxAdjusted),
     ("avg_hdr_offset", .text s.sizes.headerOffset), ("tiers", .array (s.tins.map Tin.toJson)),
     ("tx_bytes_per_s", .real s.rates.tx), ("drops_per_s", .real s.rates.drops),
     ("max_av_delay_ms", .real s.rates.avDelay), ("max_pk_delay_ms", .real s.rates.pkDelay)]
    ++ (TextOption.all.map fun k => (k.key, .text (s.options.text k)))
    ++ (Switch.all.map fun k => (k.key, .bool (s.options.isOn k)))
    ++ (Total.all.map fun k => (k.key, .int (s.totals.get k)))

end Snapshot

end CakeMonitor
