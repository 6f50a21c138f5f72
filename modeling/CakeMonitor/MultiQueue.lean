import CakeMonitor.Report.Block
/-!
# Queues over several hardware queues

Model of `max_delay_string`, `aggregate_tiers`, `aggregate_queues`, `identity_only`, `merge_multiqueue` and
`collect_stats`. A multi-queue discipline spreads packets over the hardware queues of a device. A report lists
it as one queue and each hardware queue as another that names it as parent. All have one configuration and
counters of their own, so they are merged: identity comes from the parent, configuration from the first child,
counters are added and of delays the worst counts.

* `MultiQueue.worstDelay` (`max_delay_string`): the greatest of some delays, as printed.
* `MultiQueue.mergeTins` (`aggregate_tiers`): the tins of several queues, position by position.
* `MultiQueue.mergeQueues` (`aggregate_queues`): one snapshot of a parent and its children.
* `MultiQueue.merge` (`merge_multiqueue`): all snapshots of a report, in its order; a child without parent
  stays.
* `Report.snapshots` (`collect_stats`): the snapshots of a printed report; `Report.textOf` is one given as
  octets.
-/

namespace CakeMonitor

namespace MultiQueue

/-- The worst of some delays after `best`, which lasts `longest` microseconds. A longer delay
replaces it, and so does any when there is none yet. -/
def worstFrom (longest : Binary64) (best : Text) : List Text → Text
  | [] => best
  | d :: ds =>
    let us := Delay.microseconds d
    if Binary64.lt longest us || best = [] then worstFrom us d ds else worstFrom longest best ds

/-- The delay that lasts longest, empty when there is none. -/
def worstDelay (delays : List Text) : Text := worstFrom .zero [] delays

/-- The sum of some sizes, as a size. -/
def addSizes (sizes : List Text) : Except NumberError Text := do
  let bytes ← sizes.mapM Size.read
  Size.print (sumOf (bytes.map Int.ofNat))

/-- One tin from those in the same position on every queue; the first of them is `base`. -/
def mergeColumn (base : Tin) (column : List Tin) : Except NumberError Tin := do
  let backlog ← addSizes (column.map (·.label .backlog))
  return {
    name := base.name
    labels := .ofFn fun
      | .backlog => backlog
      | .pkDelay => worstDelay (column.map (·.label .pkDelay))
      | .avDelay => worstDelay (column.map (·.label .avDelay))
      | .spDelay => worstDelay (column.map (·.label .spDelay))
      | l => base.label l
    counters := .ofFn fun
      | .maxLen => (column.map (·.count .maxLen)).foldl max (base.count .maxLen)
      | .quantum => base.count .quantum
      | c => sumOf (column.map (·.count c)) }

/-- The tins in one position of several tables. -/
def column (tables : List (List Tin)) (i : Nat) : List Tin := tables.filterMap (·[i]?)

/-- One table from the tables of several queues, as long as the first. -/
def mergeTins (tables : List (List Tin)) : Except NumberError (List Tin) :=
  (tables.headD []).zipIdx.mapM fun (base, i) => mergeColumn base (column tables i)

/-- A parent without children in the report: its identity alone. -/
def identityOnly (parent : Snapshot) : Snapshot :=
  { interface := parent.interface, handle := parent.handle, rawHeader := parent.rawHeader
    updatedAt := parent.updatedAt
    options := { direction := parent.options.direction } }

/-- The snapshot of a parent and its children as one queue. -/
def mergeQueues (parent : Snapshot) : List Snapshot → Except NumberError Snapshot
  | [] => .ok (identityOnly parent)
  | first :: rest => do
    let children := first :: rest
    let backlogBytes ← addSizes (children.map (·.backlogBytes))
    let memoryUsed ← addSizes (children.map (·.memoryUsed))
    let tins ← mergeTins (children.map (·.tins))
    return { first with
      handle := parent.handle
      interface := parent.interface
      rawHeader := parent.rawHeader
      updatedAt := parent.updatedAt
      totals := .ofFn fun t => sumOf (children.map (·.totals.get t))
      backlogBytes, memoryUsed, tins }

/-- Interface and major handle, by which parent and children find each other. -/
abbrev Key := Text × Text

/-- The key of a parent. -/
def parentKey? (b : Block) : Option Key :=
  match b.attachment with
  | .multiQueue => some (b.snapshot.interface, b.snapshot.handle)
  | _ => none

/-- The key of the parent that a queue names. -/
def childKey? (b : Block) : Option Key :=
  match b.attachment with
  | .under major => some (b.snapshot.interface, major)
  | _ => none

/-- Whether there is a parent with that key. -/
def hasParent (blocks : List Block) (k : Key) : Bool := blocks.any fun b => parentKey? b = some k

/-- Whether a queue goes into the snapshot of its parent. -/
def isAbsorbed (blocks : List Block) (b : Block) : Bool := (childKey? b).any (hasParent blocks)

/-- The children of a parent, in order. -/
def children (blocks : List Block) (k : Key) : List Snapshot :=
  (blocks.filter fun b => childKey? b = some k).map (·.snapshot)

/-- The snapshots for a rest of the blocks, behind `earlier` ones. Of several parents with one key
the first stands for all. -/
def mergeRest (blocks earlier : List Block) : List Block → Except NumberError (List Snapshot)
  | [] => .ok []
  | b :: rest => do
    let here ← match parentKey? b with
      | some k =>
        if hasParent earlier k then pure []
        else (mergeQueues b.snapshot (children blocks k)).map ([·])
      | none => pure (if isAbsorbed blocks b then [] else [b.snapshot])
    return here ++ (← mergeRest blocks (earlier ++ [b]) rest)

/-- The snapshots of a report's queues, where the children of each parent are merged into it. -/
def merge (blocks : List Block) : Except NumberError (List Snapshot) := mergeRest blocks [] blocks

end MultiQueue

namespace Report

/-- The snapshots of a printed report, one for each logical interface. -/
def snapshots (updatedAt : Timestamp) (report : Text) : Except NumberError (List Snapshot) := do
  MultiQueue.merge (← cakeBlocks updatedAt report)

/-- The text of a report given as octets. -/
def textOf (report : Octets) : Text := Utf8.decodeLossy report

end Report

end CakeMonitor
