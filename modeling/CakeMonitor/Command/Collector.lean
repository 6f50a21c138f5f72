import CakeMonitor.Command.Executor
import CakeMonitor.MultiQueue
/-!
# Collecting statistics

Model of `StatsCollector` and `probe_json_support`.

* `Collector.collect`: run the program and read its report. The structured report comes first when
  it is asked for, and the printed one when that cannot be decoded.
* `Executor.supportsJson` (`probe_json_support`): whether the program can give a structured report.
-/

namespace CakeMonitor

/-- The snapshots of a printed report; every error is one of a number in it. -/
def Report.read (updatedAt : Timestamp) (report : Text) : Except Failure (List Snapshot) :=
  (Report.snapshots updatedAt report).mapError fun e => .report (.number e)

/-- Whether the program can give a structured report: it must end well with output that can be
decoded. A command that fails means no; other errors come out. -/
def Executor.supportsJson (e : Executor) (now : Timestamp) : Act Bool := do
  let result ← tryCatch (some <$> e.run (Executor.statisticsArguments true)) fun
    | .command _ => pure none
    | other => throw other
  match result with
  | none => return false
  | some (code, output) =>
    if code ≠ 0 then return false
    else match Structured.ofText now output with
      | .ok _ => return true
      | .error e => if e.isUndecodable then return false else throw (.report e)

/-- An executor with the form of report to ask for. -/
structure Collector where
  executor : Executor
  json : Bool := false
  deriving DecidableEq

namespace Collector

/-- The snapshots of the printed report. -/
def collectPrinted (c : Collector) (now : Timestamp) : Act (List Snapshot) := do
  match Report.read now (← c.executor.report false) with
  | .ok snapshots => return snapshots
  | .error e => throw e

/-- The snapshots of the structured report, or else of the printed one. -/
def collect (c : Collector) (now : Timestamp) : Act (List Snapshot) := do
  if !c.json then c.collectPrinted now
  else match Structured.ofText now (← c.executor.report true) with
    | .ok snapshots => return snapshots
    | .error e => if e.isUndecodable then c.collectPrinted now else throw (.report e)

end Collector

end CakeMonitor
