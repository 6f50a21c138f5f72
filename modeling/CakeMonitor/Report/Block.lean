import CakeMonitor.Report.Header
import CakeMonitor.Report.Line
import CakeMonitor.Report.Table
import CakeMonitor.Text.Utf8
/-!
# The blocks of a report

Model of `split_blocks`, `parse_cake_block` and `parse_blocks`. A report lists queueing disciplines one after
another. Each begins with a line `qdisc …`; the lines up to the next such line are its block. Blocks of other
disciplines than CAKE are passed over.

* `Report.blocks` (`split_blocks`): the lines of a report in blocks.
* `Draft`: a snapshot in the making, and what `Draft.read` makes of the next line.
* `Block.readLines` (`parse_cake_block`): the snapshot of a block.
* `Report.cakeBlocks` (`parse_blocks`): the snapshots of a report with their places in the hierarchy of
  queues.
-/

namespace CakeMonitor

/-- A snapshot in the making. -/
structure Draft where
  snapshot : Snapshot
  /-- the names in the last header of a tin table -/
  names : List Text := []
  rows : TinTable.Rows := []
  /-- whether a header of a tin table came already -/
  inTable : Bool := false

namespace Draft

/-- What the header of a block says. -/
def ofHeader (updatedAt : Timestamp) (line : Text) : Draft :=
  let s : Snapshot := { rawHeader := line.trim, updatedAt }
  match Header.read? line with
  | none => { snapshot := s }
  | some h => { snapshot :=
      { s with handle := h.handle, interface := h.interface
               options := s.options.setAll h.changes } }

/-- No header begins a tin table. -/
theorem table_ofHeader (updatedAt : Timestamp) (line : Text) :
    (ofHeader updatedAt line).names = [] ∧ (ofHeader updatedAt line).rows = [] ∧
      (ofHeader updatedAt line).inTable = false := by
  unfold ofHeader
  cases Header.read? line <;> exact ⟨rfl, rfl, rfl⟩

/-- The draft with other counters. -/
def setTotals (d : Draft) (changes : List (Total × Int)) : Draft :=
  { d with snapshot.totals := d.snapshot.totals.setAll changes }

/-- What a line of that kind adds. -/
def add (d : Draft) : Line.Kind → Except NumberError Draft
  | .row key values => .ok { d with rows := d.rows ++ [(key, values)] }
  | .sent line => (Line.sent line).map d.setTotals
  | .backlog line => (Line.backlog? line).map fun
    | none => d
    | some (bytes, packets) =>
      { d.setTotals [(.backlogPkts, packets)] with snapshot.backlogBytes := bytes }
  | .memory line => .ok <| match Line.memory? line with
    | none => d
    | some (used, total) =>
      { d with snapshot.memoryUsed := used, snapshot.memoryTotal := total }
  | .capacity value => .ok { d with snapshot.capacityEstimate := value }
  | .headerOffset value => .ok { d with snapshot.sizes.headerOffset := value }
  | .netSizes line => .ok { d with
      snapshot.sizes.minNet := (Line.bounds line).1, snapshot.sizes.maxNet := (Line.bounds line).2 }
  | .adjustedSizes line => .ok { d with
      snapshot.sizes.minAdjusted := (Line.bounds line).1
      snapshot.sizes.maxAdjusted := (Line.bounds line).2 }
  | .tinNames words => .ok { d with names := TinTable.joinNames words, inTable := true }
  | .other => .ok d

/-- Read the next line. -/
def read (d : Draft) (line : Text) : Except NumberError Draft := d.add (Line.classify d.inTable line)

/-- The finished snapshot, with the tins of the table. -/
def finish (d : Draft) : Except NumberError Snapshot :=
  (TinTable.assemble d.names d.rows).map fun tins => { d.snapshot with tins }

end Draft

/-- Where a queue is attached. -/
inductive Attachment where
  /-- to the device itself, or to no queue that the header names -/
  | root
  /-- to a queue of that major handle -/
  | under (major : Text)
  /-- the queue is itself one that spreads packets over the hardware queues under it -/
  | multiQueue
  deriving DecidableEq

/-- The snapshot of a CAKE queue with its place in the hierarchy. -/
structure Block where
  snapshot : Snapshot
  attachment : Attachment := .root
  deriving DecidableEq

namespace Block

/-- The snapshot of the lines of a block, the first of which is its header. -/
def readLines (updatedAt : Timestamp) (lines : List Text) : Except NumberError Snapshot := do
  let draft := Draft.ofHeader updatedAt (lines.headD [])
  let draft ← (lines.drop 1).foldlM Draft.read draft
  draft.finish

/-- Where the queue with that header is attached, unless it is no CAKE queue. -/
def attachment? (header : Text) : Option Attachment :=
  if Text.includes "qdisc cake_mq " header then some .multiQueue
  else if Text.includes "qdisc cake " header then
    some (match Header.parentMajor? header with
      | some major => .under major
      | none => .root)
  else none

/-- The block of those lines, unless it is no CAKE queue. -/
def read? (updatedAt : Timestamp) (lines : List Text) : Except NumberError (Option Block) :=
  match attachment? (lines.headD []) with
  | none => .ok none
  | some attachment => (readLines updatedAt lines).map fun snapshot => some { snapshot, attachment }

end Block

namespace Report

/-- Whether a line is the header of a queueing discipline. -/
def isHeader (line : Text) : Bool := Text.hasLabel "qdisc " line

/-- Put a line in front of blocks: a header behind it ends its block. -/
def addLine (line : Text) : List (List Text) → List (List Text)
  | [] => [[line]]
  | b :: bs => if b.head?.any isHeader then [line] :: b :: bs else (line :: b) :: bs

/-- The lines in blocks; each but the first begins with a header. -/
def group (lines : List Text) : List (List Text) := lines.foldr addLine []

theorem flatten_addLine (line : Text) (bs : List (List Text)) :
    (addLine line bs).flatten = line :: bs.flatten := by
  cases bs with
  | nil => rfl
  | cons b bs => rw [addLine]; split <;> simp

/-- No line is lost, and the lines keep their order. -/
theorem flatten_group (lines : List Text) : (group lines).flatten = lines := by
  induction lines with
  | nil => rfl
  | cons l ls ih => rw [group, List.foldr_cons, flatten_addLine, ← group, ih]

/-- The lines of a report in blocks. -/
def blocks (report : Text) : List (List Text) := group report.lines

/-- The CAKE queues of a report, in its order. -/
def cakeBlocks (updatedAt : Timestamp) (report : Text) : Except NumberError (List Block) :=
  ((blocks report).mapM (Block.read? updatedAt)).map (·.filterMap id)

end Report

end CakeMonitor
