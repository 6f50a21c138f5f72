import CakeMonitor.MultiQueue
import CakeMonitor.Proofs.Number.Digits

/-!
# Printed reports

How the statistics program prints its queues: a header line, lines of counters and sizes, and a table
with one right-aligned column for each tin.

* `PrintedQueue`: what is printed of a CAKE queue at the root of a device. Its words hold no blank and
  no slash and its numbers are readable, so every value of the type has a printed form.
* `OtherQueue`: the lines of a queue that is no CAKE queue.
* `PrintedQueue.lines`, `Report.print`: the printed form.
* `PrintedQueue.snapshot`: the snapshot that says the same.
-/

namespace CakeMonitor

open Text (space newline spread IsWord)

/-- A word as it is printed. -/
structure Token where
  text : Text
  isWord : IsWord text
  noSlash : ('/' : CodePoint) ∉ text

/-- The token of a word without a slash. -/
def Token.of (text : Text) (h : IsWord text ∧ ('/' : CodePoint) ∉ text) : Token := ⟨text, h.1, h.2⟩

/-- A counter as it is printed. -/
structure Count where
  value : Nat
  readable : Readable value

namespace Count

/-- The digits of the counter. -/
def text (n : Count) : Text := Text.ofNat n.value

end Count

/-- The framing that a header names. -/
inductive Framing where
  | atm
  | ptm
  | noatm
  deriving DecidableEq

namespace Framing

/-- The word of a framing in a header. -/
def word : Framing → Text
  | atm => "atm"
  | ptm => "ptm"
  | noatm => "noatm"

/-- The framing as a snapshot keeps it; none is empty. -/
def mode : Framing → Text
  | atm => "atm"
  | ptm => "ptm"
  | noatm => []

end Framing

/-- The name of a tin. -/
inductive TinName where
  | bestEffort
  | numbered (n : Token)
  | single (word : Text) (known : word ∈ Line.tinWords) (best : word ≠ "Best") (tin : word ≠ "Tin")

namespace TinName

/-- The words of the name. -/
def words : TinName → List Text
  | bestEffort => ["Best", "Effort"]
  | numbered n => ["Tin", n.text]
  | single word _ _ _ => [word]

/-- The name as one text. -/
def text (n : TinName) : Text := Text.join [space] n.words

end TinName

/-- What is printed of a tin. -/
structure PrintedTin where
  name : TinName
  label : TinLabel → Token
  count : TinCounter → Count

/-- The tin that says the same. -/
def PrintedTin.tin (p : PrintedTin) : Tin where
  name := p.name.text
  labels := .ofFn fun l => (p.label l).text
  counters := .ofFn fun c => ((p.count c).value : Int)

/-- What is printed of a CAKE queue at the root of a device. -/
structure PrintedQueue where
  handle : Token
  noColon : handle.text.getLast handle.isWord.ne_nil ≠ ':'
  interface : Token
  bandwidth : Option Token := none
  diffserv : Option { mode : Text // mode ∈ Header.diffservModes } := none
  flow : Option { mode : Text // mode ∈ Header.flowModes } := none
  nat : Bool := false
  wash : Bool := false
  ingress : Bool := false
  rtt : Option Token := none
  framing : Option Framing := none
  overhead : Option Token := none
  mpu : Option Token := none
  memlimit : Option Token := none
  fwmark : Option Token := none
  totals : Total → Count
  backlogBytes : Token
  memoryUsed : Token
  memoryTotal : Token
  capacity : Token
  minNet : Token
  maxNet : Token
  minAdjusted : Token
  maxAdjusted : Token
  headerOffset : Token
  /-- the columns of the table; without any there is no table -/
  tins : List PrintedTin := []

namespace PrintedQueue

variable (q : PrintedQueue)

/-! ## The header -/

/-- A word that announces a value, with the value. -/
def argument (word : Text) (value : Option Token) : List Text :=
  (value.map fun v => [word, v.text]).getD []

/-- The option words of the header, option by option. -/
def optionGroups : List (List Text) :=
  [argument "bandwidth" q.bandwidth, (q.diffserv.map (·.val)).toList, (q.flow.map (·.val)).toList,
   [if q.nat then "nat" else "nonat"], [if q.wash then "wash" else "nowash"],
   if q.ingress then ["ingress"] else [], argument "rtt" q.rtt,
   (q.framing.map Framing.word).toList, argument "overhead" q.overhead, argument "mpu" q.mpu,
   argument "memlimit" q.memlimit, argument "fwmark" q.fwmark]

/-- The words of the header. -/
def headerWords : List Text :=
  "qdisc" :: "cake" :: (q.handle.text ++ (":" : Text)) :: "dev" :: q.interface.text
    :: "root" :: "refcnt" :: "2" :: q.optionGroups.flatten

/-- The header without the space behind it. -/
def header : Text := Text.join [space] q.headerWords

/-! ## The lines behind it -/

/-- A line with one space in front of each word. -/
def indented (ws : List Text) : Text := spread (ws.map fun w => (1, w))

/-- The space in front of a text that is right-aligned behind another. -/
def gap (width : Nat) (t : Text) : Nat := 1 + (width - t.length)

def sentLine : Text :=
  indented ["Sent", (q.totals .sentBytes).text, "bytes", (q.totals .sentPkts).text, "pkt",
    "(dropped", (q.totals .dropped).text ++ ("," : Text),
    "overlimits", (q.totals .overlimits).text,
    "requeues", (q.totals .requeues).text ++ (")" : Text)] ++ [space]

def backlogLine : Text :=
  indented ["backlog", q.backlogBytes.text, (q.totals .backlogPkts).text ++ ("p" : Text),
    "requeues", (q.totals .requeues).text]

def memoryLine : Text := indented ["memory", "used:", q.memoryUsed.text, "of", q.memoryTotal.text]

def capacityLine : Text := indented ["capacity", "estimate:", q.capacity.text]

/-- A line of two sizes, the first in a column of that width. -/
def boundsLine (label : List Text) (width : Nat) (low high : Token) : Text :=
  indented label ++ spread [(gap width low.text, low.text), (1, "/"), (gap 7 high.text, high.text)]

def netLine : Text := boundsLine ["min/max", "network", "layer", "size:"] 12 q.minNet q.maxNet

def adjustedLine : Text :=
  boundsLine ["min/max", "overhead-adjusted", "size:"] 8 q.minAdjusted q.maxAdjusted

def offsetLine : Text :=
  indented ["average", "network", "hdr", "offset:"]
    ++ spread [(gap 12 q.headerOffset.text, q.headerOffset.text)]

/-! ## The table -/

/-- The words of a column, right-aligned behind an indentation. -/
def column (indent : Nat) : List Text → List (Nat × Text)
  | [] => []
  | w :: ws => (indent + gap 12 (Text.join [space] (w :: ws)), w) :: ws.map fun v => (1, v)

/-- The columns of a line of the table. -/
def columns (indent : Nat) : List (List Text) → List (Nat × Text)
  | [] => []
  | c :: cs => column indent c ++ cs.flatMap (column 0)

/-- The header of the table: the names of the tins. -/
def namesLine : Text := spread (columns 10 (q.tins.map fun p => p.name.words))

/-- A row of the table. -/
def row (key : Text) (values : List Text) : Text :=
  spread ((2, key) :: columns (8 - key.length) (values.map fun v => [v]))

/-- The rows of the table by their first words. -/
def rows : TinTable.Rows :=
  (TinLabel.all.map fun l => ((l.keyword : Text), q.tins.map fun p => (p.label l).text))
    ++ TinCounter.all.map fun c => ((c.keyword : Text), q.tins.map fun p => (p.count c).text)

/-- The table between two empty lines. -/
def table : List Text :=
  if q.tins = [] then []
  else [] :: q.namesLine :: (q.rows.map fun r => row r.1 r.2) ++ [[]]

/-- The lines behind the header. -/
def body : List Text :=
  [q.sentLine, q.backlogLine, q.memoryLine, q.capacityLine, q.netLine, q.adjustedLine, q.offsetLine]
    ++ q.table

/-- The lines of the queue. -/
def lines : List Text := (q.header ++ [space]) :: q.body

/-! ## What they say -/

/-- The configuration that the header tells. -/
def options : Options where
  direction := if q.ingress then "ingress" else "egress"
  bandwidth := (q.bandwidth.map (·.text)).getD []
  diffservMode := (q.diffserv.map (·.val)).getD []
  rtt := (q.rtt.map (·.text)).getD []
  overhead := (q.overhead.map (·.text)).getD []
  atmMode := (q.framing.map Framing.mode).getD []
  mpu := (q.mpu.map (·.text)).getD []
  flowMode := (q.flow.map (·.val)).getD []
  fwmarkMask := (q.fwmark.map (·.text)).getD []
  memlimit := (q.memlimit.map (·.text)).getD []
  nat := q.nat
  wash := q.wash

/-- The snapshot that says the same as the printed queue. -/
def snapshot (t : Timestamp) : Snapshot where
  interface := q.interface.text
  handle := q.handle.text
  rawHeader := q.header
  updatedAt := t
  options := q.options
  totals := .ofFn fun c => ((q.totals c).value : Int)
  backlogBytes := q.backlogBytes.text
  memoryUsed := q.memoryUsed.text
  memoryTotal := q.memoryTotal.text
  capacityEstimate := q.capacity.text
  sizes := { minNet := q.minNet.text, maxNet := q.maxNet.text, minAdjusted := q.minAdjusted.text
             maxAdjusted := q.maxAdjusted.text, headerOffset := q.headerOffset.text }
  tins := q.tins.map PrintedTin.tin

end PrintedQueue

/-- The lines of a queue that is no CAKE queue: the header names none. -/
structure OtherQueue where
  header : Text
  body : List Text := []
  begins : Report.isHeader header = true
  noQueue : Text.includes "qdisc cake " header = false
  noMultiQueue : Text.includes "qdisc cake_mq " header = false
  inside : ∀ l ∈ body, Report.isHeader l = false
  oneLine : ∀ l ∈ header :: body, newline ∉ l

/-- A queue of a report. -/
inductive ReportEntry where
  | cake (q : PrintedQueue)
  | other (o : OtherQueue)

namespace ReportEntry

/-- The lines of the queue. -/
def lines : ReportEntry → List Text
  | cake q => q.lines
  | other o => o.header :: o.body

/-- The snapshot that says the same; other queues have none. -/
def snapshot? (t : Timestamp) : ReportEntry → Option Snapshot
  | cake q => some (q.snapshot t)
  | other _ => none

end ReportEntry

/-- The report of some queues. -/
def Report.print (entries : List ReportEntry) : Text :=
  Text.unlines (entries.flatMap ReportEntry.lines)

end CakeMonitor
