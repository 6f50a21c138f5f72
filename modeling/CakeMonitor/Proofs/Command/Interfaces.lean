import CakeMonitor.Proofs.Command.Collected
import CakeMonitor.Proofs.History.Samples
import CakeMonitor.Proofs.MultiQueue.Distinct

/-!
# What is collected of an interface

A collection takes its snapshots from one report. The printed report brings the queues of a parent
together; of the structured one every CAKE entry is a snapshot, since nothing is merged. A recording
adds at most one sample for each snapshot of an interface.

* `Source`: a report with its form, and `Collector.source?`: the one that a collection takes.
* `Source.Names`: how the interfaces of the snapshots come from the report.
* `Source.names_snapshots`: they come from it like that.
* `Collector.collected_interfaces`: for whole collections, and the recordings of them.
-/

namespace CakeMonitor

/-! ## Structured reports -/

namespace Structured

/-- The interface that an entry names, empty without a name. -/
def device (entry : Json) : Text := (textOf? "dev" entry).getD []

theorem interface_snapshot {t : Timestamp} (entry : Json) (s : Snapshot)
    (h : snapshot t entry = .ok s) : s.interface = device entry := by
  unfold snapshot at h
  extract_lets rest at h
  have hrest {changes : List OptionChange} (h : rest changes = .ok s) :
      s.interface = device entry := by
    unfold rest at h
    obtain ⟨totals, -, h⟩ := bind_eq_ok.mp h
    obtain ⟨memoryUsed, -, h⟩ := bind_eq_ok.mp h
    obtain ⟨memoryLimit, -, h⟩ := bind_eq_ok.mp h
    obtain ⟨capacity, -, h⟩ := bind_eq_ok.mp h
    obtain ⟨minNet, -, h⟩ := bind_eq_ok.mp h
    obtain ⟨maxNet, -, h⟩ := bind_eq_ok.mp h
    obtain ⟨headerOffset, -, h⟩ := bind_eq_ok.mp h
    extract_lets finish at h
    have hfinish {tins : List Tin} (h : finish tins = .ok s) : s.interface = device entry := by
      obtain rfl := Except.ok.inj h
      rfl
    split at h
    · obtain ⟨tins, -, h⟩ := bind_eq_ok.mp h
      exact hfinish h
    · exact hfinish h
  split at h
  · obtain ⟨changes, -, h⟩ := bind_eq_ok.mp h
    exact hrest h
  · exact hrest h

/-- Each CAKE entry of a document gives a snapshot of the interface it names. -/
theorem interfaces_snapshots {t : Timestamp} {document : Option Json} {stats : List Snapshot}
    (h : snapshots t document = .ok stats) : ∃ entries, document = some (.array entries) ∧
      stats.map (·.interface) = (entries.filter isCake).map device := by
  match document with
  | some (.array entries) =>
    have hentries := mapError_eq_ok.mp h
    exact ⟨entries, rfl, map_eq_of_forall₂ interface_snapshot (forall₂_of_mapM hentries)⟩
  | none | some .null | some (.bool _) | some (.int _) | some (.real _) | some (.text _)
  | some (.object _) => cases h

end Structured

/-! ## Reports -/

/-- A report with its form. -/
inductive Source where
  | printed (report : Text)
  | structured (report : Text)
  deriving DecidableEq

namespace Source

/-- The snapshots of a report. -/
def snapshots (now : Timestamp) : Source → Except Failure (List Snapshot)
  | printed report => Report.read now report
  | structured report => (Structured.ofText now report).mapError .report

/-- **How the interfaces come from a report.** Those of a printed report are distinct exactly when no interface
has two queues that are kept apart. A structured report gives one for each CAKE entry, which is the device
that the entry names. -/
def Names (now : Timestamp) (interfaces : List Text) : Source → Prop
  | printed report => ∃ blocks, Report.cakeBlocks now report = .ok blocks ∧
    (interfaces.Nodup ↔ MultiQueue.Separate blocks)
  | structured report => ∃ entries, Json.ofText? (some digitLimit) report = some (.array entries) ∧
    interfaces = (entries.filter Structured.isCake).map Structured.device

/-- The interfaces of the snapshots come from their report. -/
theorem names_snapshots {now : Timestamp} {source : Source} {stats : List Snapshot}
    (h : source.snapshots now = .ok stats) : source.Names now (stats.map (·.interface)) := by
  cases source with
  | printed report =>
    have hread : Report.snapshots now report = .ok stats := mapError_eq_ok.mp h
    obtain ⟨blocks, hblocks, hmerge⟩ := bind_eq_ok.mp hread
    exact ⟨blocks, hblocks, MultiQueue.nodup_interfaces_iff hmerge⟩
  | structured report => exact Structured.interfaces_snapshots (mapError_eq_ok.mp h)

end Source

/-! ## Collections -/

namespace Collector

variable {c : Collector} {now : Timestamp} {site site' : Site} {stats : List Snapshot}

/-- The printed report that is taken on a site. -/
def printedSource? (c : Collector) (site : Site) : Option Source :=
  match (c.executor.report false).run site with
  | .ok report _ => some (.printed report)
  | .error _ _ => none

/-- The report that a collection takes its snapshots from, if it comes to that. -/
def source? (c : Collector) (now : Timestamp) (site : Site) : Option Source :=
  if c.json then
    match (c.executor.report true).run site with
    | .ok report site' => match Structured.ofText now report with
      | .ok _ => some (.structured report)
      | .error e => if e.isUndecodable then c.printedSource? site' else none
    | .error _ _ => none
  else c.printedSource? site

theorem source_of_collectPrinted (h : (c.collectPrinted now).run site = .ok stats site') :
    ∃ source, c.printedSource? site = some source ∧ source.snapshots now = .ok stats := by
  unfold printedSource?
  cases hrun : (c.executor.report false).run site with
  | error e s =>
    rw [collectPrinted, EStateM.run_bind, hrun] at h
    cases h
  | ok report s =>
    rw [run_collectPrinted hrun] at h
    cases hread : Report.read now report with
    | error e =>
      rw [hread] at h
      cases h
    | ok l =>
      rw [hread] at h
      cases h
      exact ⟨.printed report, rfl, hread⟩

/-- Collected snapshots are those of the report that is taken. -/
theorem source_of_collect (h : (c.collect now).run site = .ok stats site') :
    ∃ source, c.source? now site = some source ∧ source.snapshots now = .ok stats := by
  unfold source?
  cases hjson : c.json with
  | false =>
    rw [run_collect_plain hjson] at h
    exact source_of_collectPrinted h
  | true =>
    cases hrun : (c.executor.report true).run site with
    | error e s =>
      have hfails : (c.collect now).run site = .error e s := by
        rw [collect, hjson]
        show EStateM.run (c.executor.report true >>= _) site = _
        rw [EStateM.run_bind, hrun]
      rw [hfails] at h
      cases h
    | ok report s =>
      rw [run_collect_structured now hjson hrun] at h
      cases hread : Structured.ofText now report with
      | ok l =>
        rw [hread] at h
        cases h
        refine ⟨.structured report, by simp [hread], mapError_eq_ok.mpr hread⟩
      | error e =>
        cases he : e.isUndecodable with
        | true =>
          simp only [hread, he, if_true] at h ⊢
          exact source_of_collectPrinted h
        | false =>
          simp only [hread, he, Bool.false_eq_true, if_false] at h
          cases h

theorem run_collect_siteOf (now : Timestamp) {report : Text}
    (hout : Utf8.decodeLossy (Utf8.encode report) = report) (hread : Report.read now report = .ok stats) :
    ∃ site', ((onHost false).collect now).run (siteOf report) = .ok stats site' ∧
      (onHost false).source? now (siteOf report) = some (.printed report) := by
  obtain ⟨site', hrun⟩ := run_report_siteOf false hout
  refine ⟨site', ?_, ?_⟩
  · rw [run_collect_plain rfl, run_collectPrinted hrun, hread]
  · have hjson : (onHost false).json = false := rfl
    rw [source?, hjson, if_neg Bool.false_ne_true, printedSource?, hrun]

theorem run_collect_siteOf_structured (now : Timestamp) {report : Text}
    (hout : Utf8.decodeLossy (Utf8.encode report) = report)
    (hread : Structured.ofText now report = .ok stats) :
    ∃ site', ((onHost true).collect now).run (siteOf report) = .ok stats site' ∧
      (onHost true).source? now (siteOf report) = some (.structured report) := by
  obtain ⟨site', hrun⟩ := run_report_siteOf true hout
  refine ⟨site', ?_, ?_⟩
  · rw [run_collect_structured now rfl hrun, hread]
  · have hjson : (onHost true).json = true := rfl
    rw [source?, hjson, if_pos rfl, hrun]
    simp only [hread]

/-- **What is collected of an interface.** The snapshots of a printed report are of distinct interfaces exactly
when it keeps no two queues of one interface apart, and those of a structured report are one for each of its
CAKE entries. A recording of them, be it that it fails, adds to the series of an interface at most one sample
for each snapshot of it, so at most one where the interfaces are distinct. -/
theorem collected_interfaces (h : (c.collect now).run site = .ok stats site') :
    ∃ source, c.source? now site = some source ∧ source.snapshots now = .ok stats ∧
      source.Names now (stats.map (·.interface)) ∧
      ∀ (s : Store) (clock interval : Binary64) (i : Text) (track : Track),
        (s.record clock interval stats).store.track? i = some track →
          ∃ new : List Sample, track.samples = (s.samples i).pushAll new ∧
            new.length ≤ (stats.map (·.interface)).count i ∧
            ((stats.map (·.interface)).Nodup → new.length ≤ 1) := by
  obtain ⟨source, hsource, hsnapshots⟩ := source_of_collect h
  refine ⟨source, hsource, hsnapshots, Source.names_snapshots hsnapshots,
    fun s clock interval i track htrack => ?_⟩
  obtain ⟨new, hnew, hsamples⟩ := Store.samples_record stats htrack
  exact ⟨new, hsamples, hnew, fun hnodup => hnew.trans (List.nodup_iff_count_le_one.mp hnodup i)⟩

/-- A report of two hardware queues under one parent, and of a queue on another interface. -/
def spreadReport : Text := "qdisc cake_mq 1: dev e0 root
qdisc cake 0: dev e0 parent 1:1
qdisc cake 0: dev e0 parent 1:2
qdisc cake 2: dev e1 root
"

set_option maxRecDepth 2000 in
theorem spreadReport_eq : Utf8.decodeLossy (Utf8.encode spreadReport) = spreadReport := by
  decide +kernel

/-- A structured report of two hardware queues of one device. -/
def twinReport : Text :=
  "[\x7b\"kind\":\"cake\",\"dev\":\"e0\"\x7d,\x7b\"kind\":\"cake\",\"dev\":\"e0\"\x7d]"

theorem twinReport_eq : Utf8.decodeLossy (Utf8.encode twinReport) = twinReport := by decide +kernel

/-- The two entries as they are collected. -/
def twins : List Snapshot := [{ interface := "e0" }, { interface := "e0" }]

theorem ofText_twinReport : Structured.ofText 0 twinReport = .ok twins := by decide +kernel

/-- Of the printed report one snapshot for each of two interfaces, of the structured one two of one interface. -/
theorem collected_interfaces_spread :
    (∃ stats site' blocks, ((onHost false).collect 0).run (siteOf spreadReport) = .ok stats site' ∧
      stats.map (·.interface) = [("e0" : Text), ("e1" : Text)] ∧
      Report.cakeBlocks 0 spreadReport = .ok blocks ∧ MultiQueue.Separate blocks) ∧
    ∃ site' entries, ((onHost true).collect 0).run (siteOf twinReport) = .ok twins site' ∧
      Json.ofText? (some digitLimit) twinReport = some (.array entries) ∧
      (entries.filter Structured.isCake).map Structured.device = [("e0" : Text), ("e0" : Text)] := by
  constructor
  · have hread : Report.read 0 spreadReport = .ok
        [{ interface := "e0", handle := "1", rawHeader := "qdisc cake_mq 1: dev e0 root"
           backlogBytes := "0b", memoryUsed := "0b" },
         { interface := "e1", handle := "2", rawHeader := "qdisc cake 2: dev e1 root" }] := by
      decide +kernel
    obtain ⟨site', hrun, hsource⟩ := run_collect_siteOf 0 spreadReport_eq hread
    obtain ⟨source, hsource', -, hnames, -⟩ := collected_interfaces hrun
    obtain rfl := Option.some.inj (hsource.symm.trans hsource')
    obtain ⟨blocks, hblocks, hiff⟩ := hnames
    exact ⟨_, site', blocks, hrun, rfl, hblocks, hiff.mp (by decide)⟩
  · obtain ⟨site', hrun, hsource⟩ := run_collect_siteOf_structured 0 twinReport_eq ofText_twinReport
    obtain ⟨source, hsource', -, hnames, -⟩ := collected_interfaces hrun
    obtain rfl := Option.some.inj (hsource.symm.trans hsource')
    obtain ⟨entries, hentries, hdevices⟩ := hnames
    exact ⟨site', entries, hrun, hentries, hdevices.symm⟩

/-- A report of two hardware queues whose parent it does not list. -/
def orphanReport : Text := "qdisc cake 0: dev e0 parent 1:1
qdisc cake 0: dev e0 parent 1:2
"

set_option maxRecDepth 2000 in
theorem orphanReport_eq : Utf8.decodeLossy (Utf8.encode orphanReport) = orphanReport := by
  decide +kernel

/-- The two queues as they are collected. -/
def orphans : List Snapshot :=
  [{ interface := "e0", handle := "0", rawHeader := "qdisc cake 0: dev e0 parent 1:1" },
   { interface := "e0", handle := "0", rawHeader := "qdisc cake 0: dev e0 parent 1:2" }]

/-- A store that has recorded them once. -/
def orphansSeen : Store := ((Store.empty 300).record (.ofNat 10) (.ofNat 1) orphans).store

/-- Both queues are collected under one interface, and a recording adds two samples to its series. In the
structured form as well two entries of one device are collected apart. -/
theorem orphanReport_not_distinct :
    ((∃ site', ((onHost false).collect 0).run (siteOf orphanReport) = .ok orphans site') ∧
      ¬ (orphans.map (·.interface)).Nodup ∧
      (orphansSeen.samples ("e0" : Text)).count = 1 ∧
      ((orphansSeen.record (.ofNat 11) (.ofNat 1) orphans).store.samples ("e0" : Text)).count = 3) ∧
    (∃ site', ((onHost true).collect 0).run (siteOf twinReport) = .ok twins site') ∧
      ¬ (twins.map (·.interface)).Nodup := by
  have hread : Report.read 0 orphanReport = .ok orphans := by decide +kernel
  obtain ⟨site', hrun, -⟩ := run_collect_siteOf 0 orphanReport_eq hread
  obtain ⟨site'', hrun', -⟩ := run_collect_siteOf_structured 0 twinReport_eq ofText_twinReport
  exact ⟨⟨⟨site', hrun⟩, by decide, by decide +kernel, by decide +kernel⟩, ⟨site'', hrun'⟩, by decide⟩

end Collector

end CakeMonitor
