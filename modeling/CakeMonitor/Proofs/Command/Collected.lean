import CakeMonitor.Command.Collector
import CakeMonitor.Proofs.Report.Decodable

/-!
# Which report is collected

The structured report comes first when it is asked for, and the printed one when that is undecodable.
The way back to the printed report is open to undecodable reports alone, so an entry that cannot be
decoded ends the collection.

* `Executor.run_report`: the report of a local program that ends well.
* `Collector.run_collect_plain`, `Collector.run_collect_structured`: what a collection does once its first
  report is there.
* `Collector.UsesOrFallsBack`: the structured report is used, or the printed one is read instead.
* `Collector.structured_or_printed`: that is so exactly when every CAKE entry can be decoded.
-/

namespace CakeMonitor

namespace Executor

/-- A local program that ends well gives its output as the report. -/
theorem run_report {e : Executor} {site : Site} {r : Run} (hlocal : e.container = none)
    (hruns : site.world.runs = [r]) (hends : r.fate = .ends)
    (hexit : r.exit = 0) (json : Bool) :
    ∃ site', (e.report json).run site = .ok (Utf8.decodeLossy r.out) site' := by
  have hnext (c : Call) : (site.world.run c).1 = r := by
    show (World.next {} site.world.runs).1 = r
    rw [hruns]
    rfl
  have hspawn (c : Call) :
      (Site.run c).run site = .ok r { site with world := (site.world.run c).2 } := by
    show EStateM.Result.ok (site.world.run c).1 { site with world := (site.world.run c).2 } = _
    rw [hnext]
  have houtput : output r = r.out := by simp [output, hexit]
  have hrun : (e.run (statisticsArguments json)).run site
      = .ok (0, Utf8.decodeLossy r.out) { site with
          world := (site.world.run (.spawn (e.program :: statisticsArguments json))).2 } := by
    unfold run runLocally
    rw [hlocal]
    show EStateM.run (Site.run (.spawn (e.program :: statisticsArguments json)) >>= _) site = _
    rw [EStateM.run_bind, hspawn]
    simp only [hends]
    rw [houtput, hexit]
    rfl
  unfold report
  rw [EStateM.run_bind, hrun]
  exact ⟨_, rfl⟩

end Executor

namespace Collector

variable {c : Collector} {now : Timestamp} {site site' : Site} {output : Text}

theorem run_collect_plain (h : c.json = false) :
    (c.collect now).run site = (c.collectPrinted now).run site := by
  rw [collect, h]
  rfl

theorem run_collectPrinted (h : (c.executor.report false).run site = .ok output site') :
    (c.collectPrinted now).run site = match Report.read now output with
      | .ok stats => .ok stats site'
      | .error e => .error e site' := by
  rw [collectPrinted, EStateM.run_bind, h]
  show EStateM.run (match Report.read now output with
    | .ok stats => pure stats
    | .error e => throw e) site' = _
  cases Report.read now output <;> rfl

theorem run_collect_structured (now : Timestamp) (hjson : c.json = true)
    (h : (c.executor.report true).run site = .ok output site') :
    (c.collect now).run site = match Structured.ofText now output with
      | .ok stats => .ok stats site'
      | .error e =>
        if e.isUndecodable then (c.collectPrinted now).run site' else .error (.report e) site' := by
  rw [collect, hjson]
  show EStateM.run (c.executor.report true >>= fun output =>
    match Structured.ofText now output with
    | .ok stats => pure stats
    | .error e => if e.isUndecodable then c.collectPrinted now else throw (.report e)) site = _
  rw [EStateM.run_bind, h]
  show EStateM.run (match Structured.ofText now output with
    | .ok stats => pure stats
    | .error e => if e.isUndecodable then c.collectPrinted now else throw (.report e)) site' = _
  cases Structured.ofText now output with
  | ok stats => rfl
  | error e =>
    cases he : e.isUndecodable with
    | true => simp only [he, if_true]
    | false =>
      simp only [he, Bool.false_eq_true, if_false]
      rfl

/-- A collection whose structured report is `output`, read on `site'`, uses that report, or it is
undecodable and the printed one is collected from there on. -/
def UsesOrFallsBack (c : Collector) (now : Timestamp) (site : Site) (output : Text) (site' : Site) :
    Prop :=
  (∃ stats, Structured.ofText now output = .ok stats ∧ (c.collect now).run site = .ok stats site') ∨
    (∃ e, Structured.ofText now output = .error e ∧ e.isUndecodable = true ∧
      (c.collect now).run site = (c.collectPrinted now).run site')

theorem usesOrFallsBack_of_structured (hjson : c.json = true)
    (h : (c.executor.report true).run site = .ok output site') :
    c.UsesOrFallsBack now site output site' ↔
      Structured.FailsOnlyUndecodable (Structured.ofText now output) := by
  have hrun := run_collect_structured now hjson h
  unfold UsesOrFallsBack Structured.FailsOnlyUndecodable
  cases hread : Structured.ofText now output with
  | ok stats =>
    rw [hread] at hrun
    exact iff_of_true (.inl ⟨stats, rfl, hrun⟩) nofun
  | error e =>
    cases he : e.isUndecodable with
    | true =>
      simp only [hread, he, if_true] at hrun
      refine iff_of_true (.inr ⟨e, rfl, he, hrun⟩) fun e' he' => ?_
      obtain rfl := Except.error.inj he'
      exact he
    | false =>
      refine iff_of_false ?_ fun hall => Bool.false_ne_true (he.symm.trans (hall e rfl))
      rintro (⟨stats, hstats, -⟩ | ⟨e', he', hundecodable, -⟩)
      · cases hstats
      · obtain rfl := Except.error.inj he'
        exact Bool.false_ne_true (he.symm.trans hundecodable)

/-- A collector on this host that asks for the structured report, or for the printed one. -/
def onHost (json : Bool) : Collector where
  executor := { timeout := .ofNat 5 }
  json

/-- A site on which every run gives that output. -/
def siteOf (out : Text) : Site := { world := { runs := [{ out := Utf8.encode out }] } }

theorem run_report_siteOf (json : Bool) {out : Text} (h : Utf8.decodeLossy (Utf8.encode out) = out) :
    ∃ site', ((onHost json).executor.report json).run (siteOf out) = .ok out site' := by
  have hruns : (siteOf out).world.runs = [{ out := Utf8.encode out }] := rfl
  obtain ⟨site', hrun⟩ := Executor.run_report (e := (onHost json).executor) rfl hruns rfl rfl json
  exact ⟨site', by rw [hrun, h]⟩

/-- **Structured reports fail only as undecodable**, be they text or octets, exactly when each of their
CAKE entries can be decoded; and exactly then a collection uses the structured report or falls back on the
printed one. -/
theorem structured_or_printed (now : Timestamp) :
    (∀ report : Text, Structured.FailsOnlyUndecodable (Structured.ofText now report) ↔
      Structured.AllDecodable (Json.ofText? (some digitLimit) report)) ∧
    (∀ report : Octets, Structured.FailsOnlyUndecodable (Structured.ofOctets now report) ↔
      Structured.AllDecodable (Json.ofOctets? (some digitLimit) report)) ∧
    ∀ (c : Collector) (site site' : Site) (output : Text), c.json = true →
      (c.executor.report true).run site = .ok output site' →
        (c.UsesOrFallsBack now site output site' ↔
          Structured.AllDecodable (Json.ofText? (some digitLimit) output)) := by
  refine ⟨fun _ => Structured.only_undecodable_iff, fun _ => Structured.only_undecodable_iff, ?_⟩
  intro c site site' output hjson h
  exact (usesOrFallsBack_of_structured hjson h).trans Structured.only_undecodable_iff

/-- A structured report of one queue that has sent ten bytes. -/
def tenBytes : Text := "[\x7b\"kind\":\"cake\",\"bytes\":10\x7d]"

theorem structured_or_printed_tenBytes : (onHost true).json = true ∧
    ∃ site', ((onHost true).executor.report true).run (siteOf tenBytes) = .ok tenBytes site' ∧
      (onHost true).UsesOrFallsBack 0 (siteOf tenBytes) tenBytes site' := by
  have hread : Structured.ofText 0 tenBytes = .ok [{ totals := { sentBytes := 10 } }] := by
    decide +kernel
  obtain ⟨htext, -, hcollect⟩ := structured_or_printed 0
  have hout : Utf8.decodeLossy (Utf8.encode tenBytes) = tenBytes := by decide +kernel
  obtain ⟨site', hrun⟩ := run_report_siteOf true hout
  refine ⟨rfl, site', hrun, ?_⟩
  refine (hcollect (onHost true) (siteOf tenBytes) site' tenBytes rfl hrun).mpr ?_
  refine (htext tenBytes).mp fun e he => ?_
  rw [hread] at he
  cases he

/-- A structured report whose byte counter is NaN. -/
def nanBytes : Text := "[\x7b\"kind\":\"cake\",\"bytes\":NaN\x7d]"

/-- The report is an array of JSON, and still neither used nor given up in favour of the printed one. -/
theorem nanBytes_breaks_off :
    ¬ Structured.FailsOnlyUndecodable (Structured.ofText 0 nanBytes) ∧
    ∃ site', ((onHost true).executor.report true).run (siteOf nanBytes) = .ok nanBytes site' ∧
      ¬ (onHost true).UsesOrFallsBack 0 (siteOf nanBytes) nanBytes site' := by
  have hread : Structured.ofText 0 nanBytes = .error (.number .nanToInteger) := by decide +kernel
  have hfails : ¬ Structured.FailsOnlyUndecodable (Structured.ofText 0 nanBytes) := by
    rw [hread]
    exact fun h => Bool.false_ne_true (h _ rfl)
  have hout : Utf8.decodeLossy (Utf8.encode nanBytes) = nanBytes := by decide +kernel
  obtain ⟨site', hrun⟩ := run_report_siteOf true hout
  exact ⟨hfails, site', hrun, fun h => hfails ((usesOrFallsBack_of_structured rfl hrun).mp h)⟩

end Collector

end CakeMonitor
