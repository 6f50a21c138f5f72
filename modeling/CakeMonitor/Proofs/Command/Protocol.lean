import CakeMonitor.Proofs.Command.Probe

/-!
# The commands of a collection

A collection of the printed report is one command. With the structured report there is a second one exactly
when the first ended well and its output is undecodable; the second then decides what is collected.

* `Executor.Turn.printed`, `Executor.Turn.structured`: what a command gives as snapshots.
* `Executor.Vouches`: asked for the structured report, the executor answered yes on some output.
* `Collector.Course`: all that is to be said of the commands of a collection.
* `Collector.exists_course`: every collection takes this course.
-/

namespace CakeMonitor

/-! ## Commands and snapshots -/

namespace Executor

variable {e : Executor} {now : Timestamp} {s : Site} {output : Text} {t : Turn}

/-- The snapshots of the printed report that a command gives. -/
def Turn.printed (now : Timestamp) (t : Turn) : Except Failure (List Snapshot) := t.report >>= Report.read now

/-- The snapshots of the structured report that a command gives. -/
def Turn.structured (now : Timestamp) (t : Turn) : Except Failure (List Snapshot) :=
  t.report >>= fun output => (Structured.ofText now output).mapError .report

/-- The command ended well, and its output is no array of JSON. -/
def Turn.Undecodable (now : Timestamp) (t : Turn) : Prop :=
  ∃ output g, t.result = .ok (0, output) ∧ Structured.ofText now output = .error g ∧ g.isUndecodable = true

/-- Asked on a site for the structured report, the executor answered yes, and that was the output. -/
def Vouches (e : Executor) (s : Site) (now : Timestamp) (output : Text) : Prop :=
  s.result (e.supportsJson now) = .ok true ∧ ∃ code, (e.structuredTurn s).result = .ok (code, output)

/-- Output on which the answer was yes is decoded at any other time as well. -/
theorem Vouches.decoded (h : e.Vouches s now output) (later : Timestamp) :
    Succeeds (Structured.ofText later output) := by
  obtain ⟨hyes, code, houtput⟩ := h
  rw [(e.supportsJson_leads s now).result_eq] at hyes
  obtain ⟨output', stats, hresult, hread⟩ := probe_eq_true.mp hyes
  obtain ⟨-, rfl⟩ := Prod.mk.inj (Except.ok.inj (houtput.symm.trans hresult))
  exact Structured.succeeds_snapshots.mpr (Structured.succeeds_snapshots.mp ⟨stats, hread⟩)

/-- A command without a report is not undecodable, and gives no snapshots. -/
theorem not_undecodable_of_report {f : Failure} (h : t.report = .error f) : ¬ t.Undecodable now := by
  rintro ⟨output, g, hresult, -⟩
  rw [Turn.report_eq_ok.mpr hresult] at h
  cases h

theorem printed_of_report {f : Failure} (h : t.report = .error f) : t.printed now = .error f := by
  unfold Turn.printed
  rw [h]
  rfl

theorem structured_of_report {f : Failure} (h : t.report = .error f) : t.structured now = .error f := by
  unfold Turn.structured
  rw [h]
  rfl

end Executor

/-! ## Collections -/

namespace Collector

open Executor (Turn Answers Vouches)

variable {c : Collector} {now : Timestamp} {s : Site}

/-- The command for the printed report. -/
def printedTurn (c : Collector) (s : Site) : Turn := c.executor.turn s (Executor.statisticsArguments false)

theorem collectPrinted_leads (c : Collector) (now : Timestamp) (s : Site) :
    Leads (c.collectPrinted now) s (c.printedTurn s).exchanges ((c.printedTurn s).printed now)
      (c.printedTurn s).after := by
  have hreport : Leads (c.executor.report false) s (c.printedTurn s).exchanges (c.printedTurn s).report
      (c.printedTurn s).after := c.executor.report_leads s false
  unfold collectPrinted Turn.printed
  cases hresult : (c.printedTurn s).report with
  | error f =>
    rw [hresult] at hreport
    exact leads_bind_error hreport
  | ok output =>
    rw [hresult] at hreport
    rw [← List.append_nil (c.printedTurn s).exchanges]
    refine leads_bind hreport ?_
    show Leads _ _ [] (Report.read now output) _
    cases Report.read now output with
    | ok stats => exact leads_pure stats _
    | error f => exact leads_throw f _

theorem collect_of_json (hjson : c.json = true) : c.collect now = (do
    match Structured.ofText now (← c.executor.report true) with
    | .ok stats => return stats
    | .error g => if g.isUndecodable then c.collectPrinted now else throw (.report g)) := by
  unfold collect
  rw [hjson]
  rfl

theorem structuredReport_leads (c : Collector) (s : Site) :
    Leads (c.executor.report true) s (c.executor.structuredTurn s).exchanges
      (c.executor.structuredTurn s).report (c.executor.structuredTurn s).after :=
  c.executor.report_leads s true

/-- The command for the structured report decides, when that is not undecodable. -/
theorem collect_leads_structured (hjson : c.json = true)
    (h : ¬ (c.executor.structuredTurn s).Undecodable now) :
    Leads (c.collect now) s (c.executor.structuredTurn s).exchanges
      ((c.executor.structuredTurn s).structured now) (c.executor.structuredTurn s).after := by
  have hreport := c.structuredReport_leads s
  rw [collect_of_json hjson]
  unfold Turn.structured
  cases hresult : (c.executor.structuredTurn s).report with
  | error f =>
    rw [hresult] at hreport
    exact leads_bind_error hreport
  | ok output =>
    rw [hresult] at hreport
    rw [← List.append_nil (c.executor.structuredTurn s).exchanges]
    refine leads_bind hreport ?_
    show Leads _ _ [] ((Structured.ofText now output).mapError .report) _
    cases hread : Structured.ofText now output with
    | ok stats => exact leads_pure stats _
    | error g =>
      cases hg : g.isUndecodable with
      | true => exact absurd ⟨output, g, Turn.report_eq_ok.mp hresult, hread, hg⟩ h
      | false =>
        show Leads _ _ [] (.error (.report g)) _
        simpa only [hg, Bool.false_eq_true, if_false] using leads_throw _ _

/-- Behind an undecodable report the command for the printed one decides. -/
theorem collect_leads_printed (hjson : c.json = true)
    (h : (c.executor.structuredTurn s).Undecodable now) :
    Leads (c.collect now) s ((c.executor.structuredTurn s).exchanges
        ++ (c.printedTurn (c.executor.structuredTurn s).after).exchanges)
      ((c.printedTurn (c.executor.structuredTurn s).after).printed now)
      (c.printedTurn (c.executor.structuredTurn s).after).after := by
  obtain ⟨output, g, hresult, hread, hg⟩ := h
  have hreport := c.structuredReport_leads s
  rw [Turn.report_eq_ok.mpr hresult] at hreport
  rw [collect_of_json hjson]
  refine leads_bind hreport ?_
  simp only [hread, hg, if_true]
  exact c.collectPrinted_leads now _

/-! ## The course of a collection -/

/-- **The commands of a collection**, and what they come to. -/
structure Course (c : Collector) (now : Timestamp) (s : Site) (turns : List Turn) : Prop where
  /-- they follow one another -/
  commands : turns = c.executor.turns s (turns.map (·.arguments))
  /-- nothing else is called -/
  calls : s.exchanges (c.collect now) = turns.flatMap (·.exchanges)
  /-- what each of them gives is decided by its calls -/
  answers : ∀ t ∈ turns, Answers c.executor t
  /-- without the structured report there is one, for the printed report -/
  printed : c.json = false → ∃ t, turns = [t] ∧ t.arguments = (["-s", "qdisc"] : List Text) ∧
    s.result (c.collect now) = t.printed now
  /-- with it there is a second one exactly behind an undecodable report -/
  structured : c.json = true → ∃ first, first.arguments = (["-j", "-s", "qdisc"] : List Text) ∧
    (¬ first.Undecodable now ∧ turns = [first] ∧ s.result (c.collect now) = first.structured now ∨
      first.Undecodable now ∧ ∃ second, turns = [first, second] ∧
        second.arguments = (["-s", "qdisc"] : List Text) ∧ s.result (c.collect now) = second.printed now)
  /-- a program that fails or is not started is the end -/
  failed : ∀ t ∈ turns, commandLines t.exchanges = [] ∨ (∃ x ∈ t.exchanges, x.isFailure = true) →
    turns.getLast? = some t ∧ ∃ f, t.report = .error (.command f) ∧
      s.result (c.collect now) = .error (.command f)
  /-- output that was accepted before is used -/
  vouched : c.json = true → ∀ first ∈ turns.head?, ∀ (e : Executor) (site : Site) (before : Timestamp)
    (output : Text), e.Vouches site before output → first.result = .ok (0, output) → turns = [first] ∧
      ∃ stats, Structured.ofText now output = .ok stats ∧ s.result (c.collect now) = .ok stats

theorem course_plain (hjson : c.json = false) (now : Timestamp) (s : Site) :
    Course c now s [c.printedTurn s] := by
  have hcollect : c.collect now = c.collectPrinted now := by
    unfold collect
    rw [hjson]
    rfl
  have hleads := c.collectPrinted_leads now s
  rw [← hcollect] at hleads
  have hanswers : Answers c.executor (c.printedTurn s) := c.executor.answers_turn s _
  refine ⟨rfl, ?_, ?_, fun _ => ⟨_, rfl, rfl, hleads.result_eq⟩, fun h => ?_, ?_, fun h => ?_⟩
  · rw [hleads.exchanges_eq, List.flatMap_singleton]
  · rwa [List.forall_mem_singleton]
  · rw [hjson] at h
    cases h
  · rw [List.forall_mem_singleton]
    intro h
    obtain ⟨f, hf⟩ := hanswers.report_of_failure h
    exact ⟨rfl, f, hf, hleads.result_eq.trans (Executor.printed_of_report hf)⟩
  · rw [hjson] at h
    cases h

theorem course_structured (hjson : c.json = true) (h : ¬ (c.executor.structuredTurn s).Undecodable now) :
    Course c now s [c.executor.structuredTurn s] := by
  have hleads := collect_leads_structured hjson h
  have hanswers : Answers c.executor (c.executor.structuredTurn s) := c.executor.answers_turn s _
  refine ⟨rfl, ?_, ?_, fun hplain => ?_, fun _ => ⟨_, rfl, .inl ⟨h, rfl, hleads.result_eq⟩⟩, ?_, ?_⟩
  · rw [hleads.exchanges_eq, List.flatMap_singleton]
  · rwa [List.forall_mem_singleton]
  · rw [hjson] at hplain
    cases hplain
  · rw [List.forall_mem_singleton]
    intro hfails
    obtain ⟨f, hf⟩ := hanswers.report_of_failure hfails
    exact ⟨rfl, f, hf, hleads.result_eq.trans (Executor.structured_of_report hf)⟩
  · rintro - first hfirst e site before output hvouches hresult
    obtain rfl := Option.some.inj hfirst
    obtain ⟨stats, hread⟩ := hvouches.decoded now
    refine ⟨rfl, stats, hread, ?_⟩
    rw [hleads.result_eq, Turn.structured, Turn.report_eq_ok.mpr hresult]
    show (Structured.ofText now output).mapError Failure.report = _
    rw [hread]
    rfl

theorem course_fallback (hjson : c.json = true) (h : (c.executor.structuredTurn s).Undecodable now) :
    Course c now s [c.executor.structuredTurn s, c.printedTurn (c.executor.structuredTurn s).after] := by
  have hleads := collect_leads_printed hjson h
  have hfirst : Answers c.executor (c.executor.structuredTurn s) := c.executor.answers_turn s _
  have hsecond : Answers c.executor (c.printedTurn (c.executor.structuredTurn s).after) :=
    c.executor.answers_turn _ _
  refine ⟨rfl, ?_, ?_, fun hplain => ?_,
    fun _ => ⟨_, rfl, .inr ⟨h, _, rfl, rfl, hleads.result_eq⟩⟩, ?_, ?_⟩
  · rw [hleads.exchanges_eq, List.flatMap_cons, List.flatMap_singleton]
  · rw [List.forall_mem_cons, List.forall_mem_singleton]
    exact ⟨hfirst, hsecond⟩
  · rw [hjson] at hplain
    cases hplain
  · rw [List.forall_mem_cons, List.forall_mem_singleton]
    refine ⟨fun hfails => ?_, fun hfails => ?_⟩
    · obtain ⟨f, hf⟩ := hfirst.report_of_failure hfails
      exact absurd h (Executor.not_undecodable_of_report hf)
    · obtain ⟨f, hf⟩ := hsecond.report_of_failure hfails
      exact ⟨rfl, f, hf, hleads.result_eq.trans (Executor.printed_of_report hf)⟩
  · rintro - first hhead e site before output hvouches hresult
    obtain rfl := Option.some.inj hhead
    obtain ⟨output', g, hresult', hread, -⟩ := h
    obtain ⟨-, rfl⟩ := Prod.mk.inj (Except.ok.inj (hresult.symm.trans hresult'))
    obtain ⟨stats, hstats⟩ := hvouches.decoded now
    rw [hread] at hstats
    cases hstats

end Collector

end CakeMonitor
