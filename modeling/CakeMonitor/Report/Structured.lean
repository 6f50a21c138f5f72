import CakeMonitor.Json.Decode
import CakeMonitor.Quantity
import CakeMonitor.Snapshot
/-!
# Structured reports

Model of `parse_json_stats` with `_json_uint`, `_json_options` and `_json_tiers`. A report in JSON is an array
with an object for each queueing discipline. It says less than the printed report: tins have no names and no
delays. A key that is missing or holds a value of another type leaves its field as it is.

* `Structured.snapshots`: the snapshots of the CAKE entries of a document.
* `Structured.ofText`, `Structured.ofOctets`: those of a report.

The depth to which arrays and objects may be nested is not limited here, and the reason for which a document
cannot be decoded is not told.
-/

namespace CakeMonitor

/-- Why a report could not be read. -/
inductive ReportError where
  | invalidJson
  | notAnArray
  | number (e : NumberError)
  deriving DecidableEq

namespace ReportError

/-- The kind under which the reason is reported. -/
def kind : ReportError → String
  | .invalidJson | .notAnArray => "StatsDecodeError"
  | .number e => e.kind

/-- The message of the reason. -/
def message : ReportError → Text
  | .invalidJson => "Invalid tc JSON output"
  | .notAnArray => "tc JSON output is not an array"
  | .number e => e.message

/-- Whether the report is no structured report at all. -/
def isUndecodable : ReportError → Bool
  | .invalidJson | .notAnArray => true
  | .number _ => false

end ReportError

namespace Structured

/-- The count that a value holds: negative numbers count as zero, fractions are cut off, and a text
holds a counter. -/
def count? : Json → Except NumberError (Option Nat)
  | .int i => .ok (some i.toNat)
  | .real x => x.truncate.map fun i => some i.toNat
  | .text t => (Counter.read t).map some
  | _ => .ok none

/-- The count of a key of an object. -/
def countOf? (key : String) (entry : Json) : Except NumberError (Option Nat) :=
  match entry.field? key with
  | some v => count? v
  | none => .ok none

/-- The text of a key of an object. -/
def textOf? (key : String) (entry : Json) : Option Text := (entry.field? key).bind Json.text?

/-- The truth value of a key of an object. -/
def boolOf? (key : String) (entry : Json) : Option Bool := (entry.field? key).bind Json.bool?

/-- The overhead per packet, which may be negative; a text is none. -/
def overhead? (options : Json) : Except NumberError (Option Int) :=
  match options.field? "overhead" with
  | some (.int i) => .ok (some i)
  | some (.real x) => x.truncate.map some
  | _ => .ok none

/-- What the options of an entry set. -/
def optionChanges (options : Json) : Except NumberError (List OptionChange) := do
  let bandwidth ← countOf? "bandwidth" options
  let mpu ← countOf? "mpu" options
  let overhead ← overhead? options
  let rtt ← countOf? "rtt" options
  return [
    bandwidth.map fun n => .text .bandwidth (Text.ofNat n ++ ("bit" : Text)),
    (textOf? "diffserv" options).map (.text .diffservMode),
    (boolOf? "nat" options).map (.switch .nat),
    (boolOf? "wash" options).map (.switch .wash),
    ((textOf? "atm" options).filter (· ≠ [])).map (.text .atmMode),
    (mpu.filter (· ≠ 0)).map fun n => .text .mpu (Text.ofNat n),
    overhead.map fun i => .text .overhead (Text.ofInt i),
    rtt.map fun n => .text .rtt (Text.ofNat (n / 1000) ++ ("ms" : Text))].filterMap id

/-- The counters of a tin with their keys. -/
def tinCounters : List (String × TinCounter) :=
  [("sent_bytes", .bytes), ("drops", .drops), ("max_pkt_len", .maxLen), ("flow_quantum", .quantum)]

/-- The tin that an object describes. -/
def tin (entry : Json) : Except NumberError Tin := do
  let thresh ← countOf? "threshold_rate" entry
  let counters ← tinCounters.foldlM (fun (t : TinCounters) (key, c) => do
    return ((← countOf? key entry).map fun n => t.set c n).getD t) {}
  return { labels := { thresh := (thresh.map Text.ofNat).getD [] }, counters }

/-- Whether a value is an object. -/
def isObject : Json → Bool
  | .object _ => true
  | _ => false

/-- The tins that an array describes; what is no object is passed over. -/
def tins (entries : List Json) : Except NumberError (List Tin) :=
  (entries.filter isObject).mapM tin

/-- The counters of an entry with their keys. -/
def totals : List (String × Total) :=
  [("bytes", .sentBytes), ("packets", .sentPkts), ("drops", .dropped),
   ("overlimits", .overlimits), ("requeues", .requeues)]

/-- A count as text, empty when there is none. -/
def rendered (count : Option Nat) (render : Nat → Text) : Text := (count.map render).getD []

/-- The snapshot that an entry describes. -/
def snapshot (updatedAt : Timestamp) (entry : Json) : Except NumberError Snapshot := do
  let changes ← match entry.field? "options" with
    | some (.object fs) => optionChanges (.object fs)
    | _ => pure []
  let totals ← totals.foldlM (fun (t : Totals) (key, c) => do
    return ((← countOf? key entry).map fun n => t.set c n).getD t) {}
  let memoryUsed ← countOf? "memory_used" entry
  let memoryLimit ← countOf? "memory_limit" entry
  let capacity ← countOf? "capacity_estimate" entry
  let minNet ← countOf? "min_network_size" entry
  let maxNet ← countOf? "max_network_size" entry
  let headerOffset ← countOf? "avg_hdr_offset" entry
  let tins ← match entry.field? "tins" with
    | some (.array ts) => tins ts
    | _ => pure []
  return {
    interface := (textOf? "dev" entry).getD []
    handle := ((textOf? "handle" entry).map (Text.trimEndBy (· = ':'))).getD []
    updatedAt, totals, tins
    options := ({} : Options).setAll changes
    memoryUsed := rendered memoryUsed fun n => Text.ofNat n ++ ("b" : Text)
    memoryTotal := rendered memoryLimit fun n => Text.ofNat (n / (1024 * 1024)) ++ ("Mb" : Text)
    capacityEstimate := rendered capacity fun n => Text.ofNat (n / 1000000) ++ ("Mbit" : Text)
    sizes := { minNet := rendered minNet Text.ofNat, maxNet := rendered maxNet Text.ofNat
               headerOffset := rendered headerOffset Text.ofNat } }

/-- Whether an entry describes a CAKE queue. -/
def isCake (entry : Json) : Bool := textOf? "kind" entry = some ("cake" : Text)

/-- The snapshots of a document, in its order. -/
def snapshots (updatedAt : Timestamp) : Option Json → Except ReportError (List Snapshot)
  | none => .error .invalidJson
  | some (.array entries) => ((entries.filter isCake).mapM (snapshot updatedAt)).mapError .number
  | some _ => .error .notAnArray

/-- The snapshots of a report given as text. -/
def ofText (updatedAt : Timestamp) (report : Text) : Except ReportError (List Snapshot) :=
  snapshots updatedAt (Json.ofText? (some digitLimit) report)

/-- The snapshots of a report given as octets. -/
def ofOctets (updatedAt : Timestamp) (report : Octets) : Except ReportError (List Snapshot) :=
  snapshots updatedAt (Json.ofOctets? (some digitLimit) report)

end Structured

end CakeMonitor
