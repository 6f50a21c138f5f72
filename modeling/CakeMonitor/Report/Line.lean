import CakeMonitor.Quantity
import CakeMonitor.Snapshot
import CakeMonitor.Text.Letter
/-!
# The lines of a queue

Model of `parse_sent_line`, `parse_backlog_line`, `parse_memory_line`, `parse_min_max` and `is_tier_header`,
and of how `parse_cake_block` tells lines apart. Behind its header a queue's block has lines of several kinds.
The line `Sent 12 bytes 3 pkt (dropped 0, overlimits 0 requeues 0)` holds counters, others hold sizes, and the
table of the tins has a header of its own and rows that begin in lower case.

* `Line.sent`, `Line.backlog?`, `Line.memory?`, `Line.bounds`: what such a line says.
* `Line.Kind`, `Line.classify`: which kind a line is. Rows of the table come first, since the row
  `backlog` would else count as the line `backlog`.
-/

namespace CakeMonitor.Line

/-- The counters named in the parentheses of a `Sent` line. -/
def sentCounters : List (Text × Total) :=
  [("dropped", .dropped), ("overlimits", .overlimits), ("requeues", .requeues)]

/-- Neighbours taken in pairs; a last one alone is dropped. -/
def pairs : List Text → List (Text × Text)
  | k :: v :: ws => (k, v) :: pairs ws
  | _ => []

/-- What stands in the first parentheses. -/
def parenthesized? (line : Text) : Option Text := do
  let (_, rest) ← Text.cut? '(' line
  let (inside, _) ← Text.cut? ')' rest
  return inside

/-- The names and values in the parentheses, in order; a comma begins a new group of pairs. -/
def sentPairs (line : Text) : List (Text × Text) :=
  match parenthesized? line with
  | none => []
  | some inside => (Text.pieces ',' inside).flatMap fun p => pairs p.words

/-- The counter that a name stands for. -/
def sentCounter? (name : Text) : Option Total :=
  (sentCounters.find? fun c => name = c.1).map (·.2)

/-- A counter set to the value of a token. -/
def counted (c : Total) (token : Text) : Except NumberError (Total × Int) :=
  (Counter.read token).map fun n => (c, (n : Int))

/-- The counters of a `Sent` line: bytes and packets if it has four words, and those in the
parentheses. -/
def sent (line : Text) : Except NumberError (List (Total × Int)) :=
  let traffic : List (Total × Text) := match line.words with
    | _ :: bytes :: _ :: packets :: _ => [(.sentBytes, bytes), (.sentPkts, packets)]
    | _ => []
  let drops := (sentPairs line).filterMap fun (k, v) => (sentCounter? k).map (·, v)
  (traffic ++ drops).mapM fun (c, token) => counted c token

/-- Bytes, as printed, and packets of a `backlog` line of at least three words. -/
def backlog? (line : Text) : Except NumberError (Option (Text × Int)) :=
  match line.words with
  | _ :: bytes :: packets :: _ => do
    let n ← Counter.read (packets.trimEndBy (· = 'p'))
    return some (bytes, (n : Int))
  | _ => pure none

/-- The label of the memory line. -/
def memoryLabel : Text := "memory used:"

/-- Memory used and memory limit of a `memory used:` line, as printed. -/
def memory? (line : Text) : Option (Text × Text) :=
  match Text.words (line.drop memoryLabel.length) with
  | used :: _ :: total :: _ => some (used, total)
  | _ => none

/-- The two values of a line such as `min/max network layer size: 28 / 1500`, empty when there is no
colon or no slash behind it. -/
def bounds (line : Text) : Text × Text :=
  match (Text.cut? ':' line).bind fun (_, rest) => Text.cut? '/' rest with
  | some (low, high) => (low.trim, high.trim)
  | none => ([], [])

/-- The words that begin the header of a tin table. -/
def tinWords : List Text :=
  ["Bulk", "Best", "Voice", "Video", "CS1", "CS2", "CS3", "CS4", "CS5", "CS6", "CS7", "BE", "Tin"]

/-- Whether a line with that first word is the header of a tin table. -/
def beginsTable (word : Text) : Bool := word ∈ tinWords

/-- The kinds of lines behind the header of a queue. -/
inductive Kind where
  /-- a row of the tin table -/
  | row (key : Text) (values : List Text)
  | sent (line : Text)
  | backlog (line : Text)
  | memory (line : Text)
  | capacity (value : Text)
  | headerOffset (value : Text)
  | netSizes (line : Text)
  | adjustedSizes (line : Text)
  /-- the header of the tin table -/
  | tinNames (words : List Text)
  /-- a line that says nothing -/
  | other
  deriving DecidableEq

/-- The kind of a trimmed line whose beginning tells it. -/
def labelled? (t : Text) : Option Kind :=
  if Text.hasLabel "Sent " t then some (.sent t)
  else if Text.hasLabel "backlog " t then some (.backlog t)
  else if Text.hasLabel memoryLabel t then some (.memory t)
  else if let some rest := Text.afterLabel? "capacity estimate:" t then some (.capacity rest.trim)
  else if let some rest := Text.afterLabel? "average network hdr offset:" t then
    some (.headerOffset rest.trim)
  else if Text.hasLabel "min/max network layer size:" t then some (.netSizes t)
  else if Text.hasLabel "min/max overhead-adjusted size:" t then some (.adjustedSizes t)
  else none

/-- Whether a word begins in lower case. -/
def beginsLower : Text → Bool
  | [] => false
  | c :: _ => c.isLower

/-- The kind of a line; `inTable` tells whether the header of a tin table came before. -/
def classify (inTable : Bool) (line : Text) : Kind :=
  match line.words with
  | [] => .other
  | w :: ws =>
    if inTable && ws ≠ [] && beginsLower w then .row w ws
    else (labelled? line.trim).getD (if beginsTable w then .tinNames (w :: ws) else .other)

end CakeMonitor.Line
