import CakeMonitor.Api
import CakeMonitor.History.SharedLock
import CakeMonitor.Json.Print
import CakeMonitor.Launch
import CakeMonitor.Main
import CakeMonitor.Proofs.Number.Digits
import CakeMonitor.Proofs.Report.Printed
import CakeMonitor.Proofs.Report.PrintedHeader
import CakeMonitor.Proofs.Report.PrintedLines
import CakeMonitor.Proofs.Report.PrintedTable
import CakeMonitor.Proofs.Report.RoundTrip
import CakeMonitor.Proofs.History.Record
import CakeMonitor.Proofs.History.Runs
import CakeMonitor.Proofs.History.BoundedList
import CakeMonitor.Proofs.MultiQueue.Merged
import CakeMonitor.Proofs.MultiQueue.Accounting
import CakeMonitor.Proofs.Number.Rounding
import CakeMonitor.Proofs.Command.Calm
import CakeMonitor.Proofs.History.Overflow
import CakeMonitor.Proofs.Service.Loop
import CakeMonitor.Proofs.History.Failure
import CakeMonitor.Proofs.History.LockWaiters
import CakeMonitor.Proofs.Report.Legible
import CakeMonitor.Proofs.Command.Interfaces
import CakeMonitor.Proofs.MultiQueue.Rearranged
import CakeMonitor.Proofs.MultiQueue.Reordered
import CakeMonitor.Proofs.Report.Compose
import CakeMonitor.Proofs.Report.Group
import CakeMonitor.Proofs.Service.FeedOrder
import CakeMonitor.Proofs.Service.SkippedPolls
import CakeMonitor.Proofs.Service.StreamEnds
import CakeMonitor.Proofs.History.SharedStore
import CakeMonitor.Proofs.Service.Subscribers
import CakeMonitor.Proofs.Report.WellFormed
import CakeMonitor.Proofs.MultiQueue.WellFormed
import CakeMonitor.Proofs.Service.Served
import CakeMonitor.Proofs.Command.ContainerCache
import CakeMonitor.Proofs.Command.Processes
import CakeMonitor.Tasks
import CakeMonitor.Proofs.Service.Tasks
import CakeMonitor.Proofs.Command.LocalCommands
import CakeMonitor.Proofs.Command.Protocol
import CakeMonitor.Proofs.Report.Edits
import CakeMonitor.Proofs.Report.OptionWords
import CakeMonitor.Proofs.History.Observations
import CakeMonitor.Proofs.History.SafeRecord
import CakeMonitor.Proofs.Report.SentTotal
import CakeMonitor.Proofs.History.SentRate
import CakeMonitor.Proofs.Report.TinTable
import CakeMonitor.Proofs.Report.LineOrder
import CakeMonitor.Proofs.Report.WhiteSpace
import CakeMonitor.Proofs.MultiQueue.WorstDelay
import CakeMonitor.Proofs.Report.TinNames
import CakeMonitor.Proofs.Report.SentPairs
import CakeMonitor.Proofs.Settings.Accepted
import CakeMonitor.Proofs.Number.OddDelay
import CakeMonitor.Proofs.History.DelayMaximum
import CakeMonitor.Proofs.Report.Partition
import CakeMonitor.Proofs.Number.Tokens
import CakeMonitor.Proofs.Number.DelayScales
