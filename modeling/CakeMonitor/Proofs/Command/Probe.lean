import CakeMonitor.Proofs.Command.Collected
import CakeMonitor.Proofs.Command.Turns
import CakeMonitor.Service

/-!
# Asking for the structured report

Whether the program can give a structured report is asked once, before anything is polled. The answer is no
when the command fails or its output is undecodable. An exception that comes out of the command comes out of
the question as well, and so does a number that cannot be read: then there is no poller.

* `Executor.Turn.probe`: what a command says about its program; `Executor.supportsJson_leads` puts the question.
* `Executor.Turn.Tame`: a command from which nothing comes out, with output whose CAKE entries can be decoded.
* `Executor.probe_answers`: after such a command the question is answered, and after no other.
-/

namespace CakeMonitor

/-- The run raises an exception of which no more than its kind is known. -/
def Exchange.raisesOther : Exchange → Bool
  | .spawn _ r | .exec _ _ r => match r.fate with
    | .raises (.other _) _ => true
    | _ => false
  | .kill | .connect _ | .find _ _ | .disconnect => false

namespace Executor

variable {e : Executor} {now : Timestamp} {s : Site}

/-! ## The question -/

/-- What a command says about its program. -/
def Turn.probe (now : Timestamp) (t : Turn) : Except Failure Bool :=
  match t.result with
  | .error (.command _) => .ok false
  | .error other => .error other
  | .ok (code, output) =>
    if code ≠ 0 then .ok false
    else match Structured.ofText now output with
      | .ok _ => .ok true
      | .error e => if e.isUndecodable then .ok false else .error (.report e)

/-- The command that asks for the structured report. -/
def structuredTurn (e : Executor) (s : Site) : Turn := e.turn s (statisticsArguments true)

/-- The question is that command, and its answer what that says. -/
theorem supportsJson_leads (e : Executor) (s : Site) (now : Timestamp) :
    Leads (e.supportsJson now) s (e.structuredTurn s).exchanges ((e.structuredTurn s).probe now)
      (e.structuredTurn s).after := by
  have hrun : Leads (e.run (statisticsArguments true)) s _ _ _ := e.turn_leads s (statisticsArguments true)
  show Leads _ s (e.turn s (statisticsArguments true)).exchanges
    ((e.turn s (statisticsArguments true)).probe now) (e.turn s (statisticsArguments true)).after
  unfold supportsJson Turn.probe
  cases hresult : (e.turn s (statisticsArguments true)).result with
  | error f =>
    rw [hresult] at hrun
    have hfails := leads_map (g := some) hrun
    cases f with
    | command g =>
      rw [← List.append_nil (e.turn s (statisticsArguments true)).exchanges]
      exact leads_bind (leads_tryCatch_error hfails (leads_pure none _)) (leads_pure false _)
    | report g => exact leads_bind_error (leads_tryCatch_error hfails (leads_throw _ _))
    | raised trouble message => exact leads_bind_error (leads_tryCatch_error hfails (leads_throw _ _))
    | stopped => exact leads_bind_error (leads_tryCatch_error hfails (leads_throw _ _))
  | ok answer =>
    obtain ⟨code, output⟩ := answer
    rw [hresult] at hrun
    rw [← List.append_nil (e.turn s (statisticsArguments true)).exchanges]
    refine leads_bind (leads_tryCatch (leads_map (g := some) hrun)) ?_
    by_cases hcode : code = 0
    · simp only [hcode, ne_eq, not_true_eq_false, if_false]
      cases Structured.ofText now output with
      | ok stats => exact leads_pure true _
      | error g =>
        cases hg : g.isUndecodable with
        | true => simpa only [hg, if_true] using leads_pure false _
        | false => simpa only [hg, Bool.false_eq_true, if_false] using leads_throw _ _
    · simp only [hcode, ne_eq, not_false_eq_true, if_true]
      exact leads_pure false _

/-- The mode `auto` asks, and takes the answer. -/
theorem result_collector {settings : Settings} (hauto : settings.json = .auto) (s : Site)
    (now : Timestamp) : s.result (settings.collector now)
      = ((settings.executor.structuredTurn s).probe now).map fun json =>
        { executor := settings.executor, json } := by
  have hasked := leads_map (g := fun json : Bool => ({ executor := settings.executor, json } : Collector))
    (settings.executor.supportsJson_leads s now)
  rw [map_eq_pure_bind] at hasked
  unfold Settings.collector
  rw [hauto]
  exact hasked.result_eq

/-! ## The answer -/

/-- Nothing comes out of the command, and every CAKE entry of its output can be decoded. -/
structure Turn.Tame (t : Turn) : Prop where
  contained : ∀ x ∈ t.exchanges, x.escapes = false
  decodable : ∀ output, t.result = .ok (0, output) →
    Structured.AllDecodable (Json.ofText? (some digitLimit) output)

theorem Answers.contained_iff {t : Turn} (ht : Answers e t) :
    (∀ x ∈ t.exchanges, x.escapes = false) ↔ ∀ f, t.result = .error f → ∃ g, f = .command g := by
  rw [← not_iff_not]
  simp only [not_forall, exists_prop, Bool.not_eq_false, not_exists]
  exact ht.escapes_iff

/-- **The question is answered** after a tame command, and after no other. -/
theorem succeeds_probe {t : Turn} (ht : Answers e t) : Succeeds (t.probe now) ↔ t.Tame := by
  have hcontained := ht.contained_iff
  unfold Turn.probe
  cases hresult : t.result with
  | error f =>
    rw [hresult] at hcontained
    cases f with
    | command g =>
      refine iff_of_true (succeeds_ok false) ⟨hcontained.mpr fun f hf => ⟨g, (Except.error.inj hf).symm⟩, ?_⟩
      rw [hresult]
      exact nofun
    | report _ | raised _ _ | stopped =>
      refine iff_of_false (not_succeeds_error _) fun htame => ?_
      obtain ⟨g, hg⟩ := hcontained.mp htame.contained _ rfl
      cases hg
  | ok answer =>
    obtain ⟨code, output⟩ := answer
    have hall : ∀ x ∈ t.exchanges, x.escapes = false := by
      rw [hcontained, hresult]
      exact nofun
    by_cases hcode : code = 0
    · subst hcode
      have htame : t.Tame ↔ Structured.FailsOnlyUndecodable (Structured.ofText now output) := by
        refine Iff.trans ⟨fun h => h.decodable output hresult, fun h => ⟨hall, fun output' h' => ?_⟩⟩
          Structured.only_undecodable_iff.symm
        rw [hresult] at h'
        cases h'
        exact h
      rw [htame]
      unfold Structured.FailsOnlyUndecodable
      simp only [ne_eq, not_true_eq_false, if_false]
      cases Structured.ofText now output with
      | ok stats => exact iff_of_true (succeeds_ok true) nofun
      | error g =>
        cases hg : g.isUndecodable with
        | true =>
          refine iff_of_true ⟨false, by simp only [hg, if_true]⟩ fun g' hg' => ?_
          rwa [← Except.error.inj hg']
        | false =>
          simp only [hg, Bool.false_eq_true, if_false]
          exact iff_of_false (not_succeeds_error _) fun h => Bool.false_ne_true (hg.symm.trans (h g rfl))
    · simp only [ne_eq, hcode, not_false_eq_true, if_true]
      refine iff_of_true (succeeds_ok false) ⟨hall, fun output' h' => ?_⟩
      rw [hresult] at h'
      cases h'
      exact absurd rfl hcode

/-- The answer is yes exactly for a command that ended well with output that can be decoded. -/
theorem probe_eq_true {t : Turn} : t.probe now = .ok true ↔
    ∃ output stats, t.result = .ok (0, output) ∧ Structured.ofText now output = .ok stats := by
  unfold Turn.probe
  cases hresult : t.result with
  | error f =>
    refine iff_of_false ?_ nofun
    cases f with
    | command _ | report _ | raised _ _ | stopped => nofun
  | ok answer =>
    obtain ⟨code, output⟩ := answer
    by_cases hcode : code = 0
    · subst hcode
      simp only [ne_eq, not_true_eq_false, if_false, Except.ok.injEq, Prod.mk.injEq, true_and]
      cases hread : Structured.ofText now output with
      | ok stats => exact iff_of_true rfl ⟨output, stats, rfl, hread⟩
      | error g =>
        refine iff_of_false ?_ ?_
        · cases hg : g.isUndecodable with
          | true => simp [hg]
          | false => simp [hg]
        · rintro ⟨_, stats, rfl, hstats⟩
          rw [hread] at hstats
          cases hstats
    · simp [hcode]

/-- **Asking for the structured report** gives an answer, and settings that ask for it a collector, when
nothing comes out of the command and its output can be decoded. Otherwise there is neither; an exception of
which no more than its kind is known is left out there. The answer is yes only to output that was decoded. -/
theorem probe_answers (e : Executor) (now : Timestamp) (s : Site) :
    Answers e (e.structuredTurn s) ∧
    ((e.structuredTurn s).Tame → Succeeds (s.result (e.supportsJson now)) ∧
      ∀ settings : Settings, settings.executor = e → settings.json = .auto →
        Succeeds (s.result (settings.collector now))) ∧
    ((∀ x ∈ (e.structuredTurn s).exchanges, x.raisesOther = false) → ¬ (e.structuredTurn s).Tame →
      ¬ Succeeds (s.result (e.supportsJson now)) ∧
        ∀ settings : Settings, settings.executor = e → settings.json = .auto →
          ¬ Succeeds (s.result (settings.collector now))) ∧
    (s.result (e.supportsJson now) = .ok true ↔ ∃ output stats,
      (e.structuredTurn s).result = .ok (0, output) ∧ Structured.ofText now output = .ok stats) := by
  have hturn := e.answers_turn s (statisticsArguments true)
  have hasked := (e.supportsJson_leads s now).result_eq
  have hcollector (settings : Settings) (he : settings.executor = e) (hauto : settings.json = .auto) :
      Succeeds (s.result (settings.collector now)) ↔ (e.structuredTurn s).Tame := by
    rw [result_collector hauto, he, succeeds_map]
    exact succeeds_probe hturn
  rw [hasked]
  refine ⟨hturn, fun htame => ⟨(succeeds_probe hturn).mpr htame, ?_⟩,
    fun _ htame => ⟨mt (succeeds_probe hturn).mp htame, ?_⟩, probe_eq_true⟩
  · exact fun settings he hauto => (hcollector settings he hauto).mpr htame
  · exact fun settings he hauto => mt (hcollector settings he hauto).mp htame

/-- Settings that ask for the structured report. -/
def asking : Settings := { json := .auto }

/-- The one queue of a report that can be decoded: the answer is yes. -/
theorem probe_answers_tenBytes : asking.json = .auto ∧
    (asking.executor.structuredTurn (Collector.siteOf Collector.tenBytes)).Tame ∧
    Succeeds ((Collector.siteOf Collector.tenBytes).result (asking.collector 0)) ∧
    (Collector.siteOf Collector.tenBytes).result (asking.executor.supportsJson 0) = .ok true := by
  have hresult : (asking.executor.structuredTurn (Collector.siteOf Collector.tenBytes)).result
      = .ok (0, Collector.tenBytes) := by decide +kernel
  have hread : Structured.ofText 0 Collector.tenBytes = .ok [{ totals := { sentBytes := 10 } }] := by
    decide +kernel
  obtain ⟨hturn, hanswers, -, hyes⟩ :=
    probe_answers asking.executor 0 (Collector.siteOf Collector.tenBytes)
  have hprobe : (asking.executor.structuredTurn (Collector.siteOf Collector.tenBytes)).probe 0 = .ok true :=
    probe_eq_true.mpr ⟨_, _, hresult, hread⟩
  have htame := (succeeds_probe hturn).mp ⟨true, hprobe⟩
  exact ⟨rfl, htame, (hanswers htame).2 asking rfl rfl, hyes.mpr ⟨_, _, hresult, hread⟩⟩

/-- A container in which the program cannot be run. -/
def failing : Site := { world := { runs := [{ fate := .raises .runtime "boom" }] } }

/-- Neither a number that cannot be read nor an exception of a run in a container is taken for a no: there
is no answer, and no collector. -/
theorem probe_breaks_off :
    (Collector.siteOf Collector.nanBytes).result (asking.executor.supportsJson 0)
      = .error (.report (.number .nanToInteger)) ∧
    ¬ Succeeds ((Collector.siteOf Collector.nanBytes).result (asking.collector 0)) ∧
    failing.result ({ asking with container := some "router" }.executor.supportsJson 0)
      = .error (.raised .runtime "boom") ∧
    ¬ Succeeds (failing.result ({ asking with container := some "router" }.collector 0)) := by
  have hnan : (Collector.siteOf Collector.nanBytes).result (asking.executor.supportsJson 0)
      = .error (.report (.number .nanToInteger)) := by decide +kernel
  have hraised : failing.result ({ asking with container := some "router" }.executor.supportsJson 0)
      = .error (.raised .runtime "boom") := by decide +kernel
  have hnone {settings : Settings} {s : Site} {f : Failure} (hauto : settings.json = .auto)
      (h : s.result (settings.executor.supportsJson 0) = .error f) :
      ¬ Succeeds (s.result (settings.collector 0)) := by
    rw [(settings.executor.supportsJson_leads s 0).result_eq] at h
    rw [result_collector hauto, h]
    exact not_succeeds_error f
  exact ⟨hnan, hnone rfl hnan, hraised, hnone rfl hraised⟩

end Executor

end CakeMonitor
