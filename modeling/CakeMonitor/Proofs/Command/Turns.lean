import CakeMonitor.Proofs.Command.ContainerCache
import CakeMonitor.Proofs.Command.Processes

/-!
# What a command gives

A command starts its program at most once. When it comes to that, the run decides what the command gives; when
it does not, the command fails as such.

* `commandLines`: the command lines with which a program was started.
* `Executor.decision?`: what a call decides.
* `Executor.Answers`: what a command gives is decided by its calls; `Executor.answers_turn` says so of every
  command.
* `Exchange.isFailure`, `Exchange.escapes`: a call with which its command fails, and one whose exception or
  stop comes out of it.
* `Executor.Turn.report`: what a command gives as a report.
* `Executor.turn_leads`, `Executor.report_leads`: a command and a report are one turn.
-/

namespace CakeMonitor

/-- The command line with which a program is started, here or in a container. -/
def Exchange.commandLine? : Exchange → Option (List Text)
  | .spawn command _ | .exec _ command _ => some command
  | .kill | .connect _ | .find _ _ | .disconnect => none

/-- The command lines with which programs were started, in order. -/
def commandLines (xs : List Exchange) : List (List Text) := xs.filterMap Exchange.commandLine?

theorem commandLines_append (xs ys : List Exchange) :
    commandLines (xs ++ ys) = commandLines xs ++ commandLines ys := List.filterMap_append

namespace Executor

variable {e : Executor} {s : Site}

/-- What a call makes its command give, if it decides that. -/
def decision? (e : Executor) : Exchange → Option (Except Failure (Int × Text))
  | .spawn command r => some (e.localOutcome command r)
  | .exec _ command r => some (e.outcome command r)
  | .connect .unavailable | .find _ .unavailable =>
    some (.error (.command (.noService "socket missing")))
  | .find name .notFound => some (.error (.command (.noContainer name)))
  | .connect _ | .find _ (.found _) | .kill | .disconnect => none

/-- **What a command gives** is decided by its calls: it starts its program once, or fails before. On this host
it always starts it, and in a container unless that cannot be had. -/
structure Answers (e : Executor) (t : Turn) : Prop where
  started : commandLines t.exchanges = [e.program :: t.arguments] ∨
    commandLines t.exchanges = [] ∧ ∃ f, t.result = .error (.command f)
  onHost : e.container = none → commandLines t.exchanges = [e.program :: t.arguments]
  inContainer : ∀ name, e.container = some name →
    (commandLines t.exchanges = [] ↔ ∃ x ∈ t.exchanges, failure? name x ≠ none)
  decided : ∀ x ∈ t.exchanges, ∀ r, e.decision? x = some r → t.result = r

/-- A failed answer decides. -/
theorem decision?_of_failure? (e : Executor) {name : Text} {x : Exchange} (h : failure? name x ≠ none) :
    ∃ r, e.decision? x = some r := by
  cases x with
  | spawn _ _ | exec _ _ _ => exact ⟨_, rfl⟩
  | connect answer =>
    cases answer with
    | unavailable => exact ⟨_, rfl⟩
    | found _ | notFound => exact absurd rfl h
  | find _ answer =>
    cases answer with
    | notFound | unavailable => exact ⟨_, rfl⟩
    | found _ => exact absurd rfl h
  | kill | disconnect => exact absurd rfl h

/-! ## Looking up the container -/

/-- Calls that start no program. A look-up that fails is decided by them, and else they decide nothing. -/
structure Prepares (e : Executor) (name : Text) (xs : List Exchange) (found : Except Failure Container) :
    Prop where
  quiet : commandLines xs = []
  fails : ∀ f, found = .error f → (∃ g, f = .command g) ∧ ∃ x ∈ xs, failure? name x ≠ none
  decided : ∀ x ∈ xs, ∀ r, e.decision? x = some r → ∃ f, found = .error f ∧ r = .error f

theorem prepares_of_connecting (e : Executor) {s s' : Site} {xs : List Exchange}
    (h : Connecting s xs (.ok ()) s') : commandLines xs = [] ∧ ∀ x ∈ xs, e.decision? x = none := by
  cases h with
  | already _ => exact ⟨rfl, nofun⟩
  | @made answer _ _ answered _ =>
    refine ⟨rfl, List.forall_mem_singleton.mpr ?_⟩
    cases answer with
    | unavailable => exact absurd rfl answered
    | found _ | notFound => rfl

theorem prepares_of_finding (e : Executor) {name : Text} {s s' : Site} {xs : List Exchange}
    {found : Except Failure Container} (h : Finding name s xs found s') : Prepares e name xs found := by
  cases h with
  | known _ => exact ⟨rfl, nofun, nofun⟩
  | unconnected _ connecting =>
    cases connecting with
    | refused _ _ =>
      refine ⟨rfl, fun f hf => ⟨⟨_, (Except.error.inj hf).symm⟩, _, List.mem_singleton_self _, nofun⟩,
        fun x hx r hr => ⟨_, rfl, ?_⟩⟩
      rw [List.mem_singleton.mp hx] at hr
      exact (Option.some.inj hr).symm
  | @asked xs answer _ _ _ connecting _ =>
    obtain ⟨hquiet, hsilent⟩ := prepares_of_connecting e connecting
    have hquiet' : commandLines (xs ++ [.find name answer]) = [] := by
      rw [commandLines_append, hquiet]
      rfl
    -- the answer alone can decide, since connecting has succeeded
    have hdecided {r : Except Failure (Int × Text)} {x : Exchange} (hx : x ∈ xs ++ [.find name answer])
        (hr : e.decision? x = some r) : e.decision? (.find name answer) = some r := by
      obtain hx | hx := List.mem_append.mp hx
      · rw [hsilent x hx] at hr
        cases hr
      · rwa [← List.mem_singleton.mp hx]
    cases answer with
    | found _ => exact ⟨hquiet', nofun, fun x hx r hr => nomatch hdecided hx hr⟩
    | notFound | unavailable =>
      have hasked {x : Exchange} : x ∈ xs ++ [x] := List.mem_append_right _ (List.mem_singleton_self _)
      exact ⟨hquiet', fun f hf => ⟨⟨_, (Except.error.inj hf).symm⟩, _, hasked, nofun⟩,
        fun x hx r hr => ⟨_, rfl, (Option.some.inj (hdecided hx hr)).symm⟩⟩

/-! ## Commands -/

theorem answers_inContainer {name : Text} (hname : e.container = some name) (s : Site)
    (arguments : List Text) : Answers e (e.turn s arguments) := by
  have hhere : e.container ≠ none := by
    rw [hname]
    nofun
  obtain ⟨xs, found, s₁, hfind, hfinding⟩ := findContainer_leads name s
  have hprepares := prepares_of_finding e hfinding
  cases found with
  | error f =>
    have hleads : Leads (e.runInContainer name (e.program :: arguments)) s xs (.error f) s₁ :=
      leads_bind_error hfind
    rw [← run_inContainer arguments hname] at hleads
    rw [turn_eq hleads]
    obtain ⟨⟨g, rfl⟩, hfailed⟩ := hprepares.fails f rfl
    refine ⟨.inr ⟨hprepares.quiet, g, rfl⟩, fun hlocal => absurd hlocal hhere, fun n hn => ?_,
      fun x hx r hr => ?_⟩
    · obtain rfl := Option.some.inj (hname.symm.trans hn)
      exact iff_of_true hprepares.quiet hfailed
    · obtain ⟨f', hf', rfl⟩ := hprepares.decided x hx r hr
      rw [Except.error.inj hf']
  | ok c =>
    obtain ⟨r, s₂, hrun, -⟩ := leads_exec c (e.program :: arguments) s₁
    have hleads : Leads (e.runInContainer name (e.program :: arguments)) s
        (xs ++ [.exec c (e.program :: arguments) r]) (e.outcome (e.program :: arguments) r) _ :=
      leads_bind hfind (leads_bind hrun (outcome_leads e _ r s₂))
    rw [← run_inContainer arguments hname] at hleads
    rw [turn_eq hleads]
    have hstarted : commandLines (xs ++ [.exec c (e.program :: arguments) r]) = [e.program :: arguments] := by
      rw [commandLines_append, hprepares.quiet]
      rfl
    refine ⟨.inl hstarted, fun hlocal => absurd hlocal hhere, fun n _ => iff_of_false ?_ ?_,
      fun x hx r' hr' => ?_⟩
    · rw [hstarted]
      nofun
    · rintro ⟨x, hx, hfailed⟩
      obtain hx | hx := List.mem_append.mp hx
      · obtain ⟨r', hr'⟩ := e.decision?_of_failure? hfailed
        obtain ⟨f, hf, -⟩ := hprepares.decided x hx r' hr'
        cases hf
      · rw [List.mem_singleton.mp hx] at hfailed
        exact hfailed rfl
    · obtain hx | hx := List.mem_append.mp hx
      · obtain ⟨f, hf, -⟩ := hprepares.decided x hx r' hr'
        cases hf
      · rw [List.mem_singleton.mp hx] at hr'
        exact Option.some.inj hr'

theorem answers_onHost (hlocal : e.container = none) (s : Site) (arguments : List Text) :
    Answers e (e.turn s arguments) := by
  obtain ⟨r, s', hleads⟩ := e.runLocally_leads (e.program :: arguments) s
  rw [← run_locally arguments hlocal] at hleads
  rw [turn_eq hleads]
  have hstarted : commandLines (localExchanges (e.program :: arguments) r)
      = [e.program :: arguments] := by
    unfold localExchanges
    split
    · rfl
    · rfl
  refine ⟨.inl hstarted, fun _ => hstarted, fun name hname => ?_, fun x hx r' hr' => ?_⟩
  · rw [hlocal] at hname
    cases hname
  · obtain rfl | hx := List.mem_cons.mp hx
    · exact Option.some.inj hr'
    · split at hx
      · rw [List.mem_singleton.mp hx] at hr'
        cases hr'
      · cases hx

/-- **Every command gives what its calls decide.** -/
theorem answers_turn (e : Executor) (s : Site) (arguments : List Text) :
    Answers e (e.turn s arguments) := by
  cases hcontainer : e.container with
  | none => exact answers_onHost hcontainer s arguments
  | some name => exact answers_inContainer hcontainer s arguments

theorem turn_leads (e : Executor) (s : Site) (arguments : List Text) :
    Leads (e.run arguments) s (e.turn s arguments).exchanges (e.turn s arguments).result
      (e.turn s arguments).after := by
  obtain ⟨xs, r, s', hleads, -⟩ := e.tidy_run arguments s
  rw [turn_eq hleads]
  exact hleads

/-! ## How commands fail -/

end Executor

/-- The run raises an exception that its command does not take for a failure, or the loop is stopped. -/
def Fate.escapes (taken : Trouble → Bool) : Fate → Bool
  | .raises trouble _ => !taken trouble
  | .interrupted => true
  | .ends | .hangs | .refused _ => false

namespace Exchange

/-- An exception or a stop comes out of the command. -/
def escapes : Exchange → Bool
  | .spawn _ r => r.fate.escapes Trouble.isSystem
  | .exec _ _ r => r.fate.escapes Trouble.isService
  | .connect _ | .find _ _ | .kill | .disconnect => false

/-- The program exits with another code than zero, times out or is not started, be it for want of a
container. -/
def isFailure : Exchange → Bool
  | .spawn _ r => match r.fate with
    | .ends => r.exit ≠ 0
    | .hangs | .refused _ => true
    | .raises trouble _ => trouble.isSystem
    | .interrupted => false
  | .exec _ _ r => match r.fate with
    | .ends | .refused _ => r.exit ≠ 0
    | .hangs => true
    | .raises trouble _ => trouble.isService
    | .interrupted => false
  | .connect .unavailable | .find _ .unavailable | .find _ .notFound => true
  | .connect _ | .find _ (.found _) | .kill | .disconnect => false

end Exchange

namespace Executor

variable {e : Executor}

theorem localOutcome_escapes {command : List Text} {r : Run} {f : Failure}
    (h : e.localOutcome command r = .error f) :
    r.fate.escapes Trouble.isSystem = true ↔ ∀ g, f ≠ .command g := by
  unfold localOutcome startFailure at h
  cases hfate : r.fate with
  | ends =>
    rw [hfate] at h
    cases h
  | hangs | refused _ =>
    rw [hfate] at h
    cases h
    exact iff_of_false Bool.false_ne_true fun hall => hall _ rfl
  | interrupted =>
    rw [hfate] at h
    cases h
    exact iff_of_true rfl nofun
  | raises trouble message =>
    rw [hfate] at h
    show (!trouble.isSystem) = true ↔ _
    cases htrouble : trouble.isSystem with
    | true =>
      simp only [htrouble, if_true] at h
      cases h
      exact iff_of_false Bool.false_ne_true fun hall => hall _ rfl
    | false =>
      simp only [htrouble, Bool.false_eq_true, if_false] at h
      cases h
      exact iff_of_true rfl nofun

theorem outcome_escapes {command : List Text} {r : Run} {f : Failure}
    (h : e.outcome command r = .error f) :
    r.fate.escapes Trouble.isService = true ↔ ∀ g, f ≠ .command g := by
  unfold outcome at h
  cases hfate : r.fate with
  | ends | refused _ =>
    rw [hfate] at h
    cases h
  | hangs =>
    rw [hfate] at h
    cases h
    exact iff_of_false Bool.false_ne_true fun hall => hall _ rfl
  | interrupted =>
    rw [hfate] at h
    cases h
    exact iff_of_true rfl nofun
  | raises trouble message =>
    rw [hfate] at h
    show (!trouble.isService) = true ↔ _
    cases htrouble : trouble.isService with
    | true =>
      simp only [htrouble, if_true] at h
      cases h
      exact iff_of_false Bool.false_ne_true fun hall => hall _ rfl
    | false =>
      simp only [htrouble, Bool.false_eq_true, if_false] at h
      cases h
      exact iff_of_true rfl nofun

/-- What comes out of a command is no failure of the command, and only that comes out. -/
theorem escapes_iff {x : Exchange} {f : Failure} (h : e.decision? x = some (.error f)) :
    x.escapes = true ↔ ∀ g, f ≠ .command g := by
  cases x with
  | spawn command r => exact localOutcome_escapes (Option.some.inj h)
  | exec c command r => exact outcome_escapes (Option.some.inj h)
  | connect answer =>
    cases answer with
    | unavailable =>
      cases h
      exact iff_of_false Bool.false_ne_true fun hall => hall _ rfl
    | found _ | notFound => cases h
  | find name answer =>
    cases answer with
    | found _ => cases h
    | notFound | unavailable =>
      cases h
      exact iff_of_false Bool.false_ne_true fun hall => hall _ rfl
  | kill | disconnect => cases h

theorem exists_of_escapes (e : Executor) {x : Exchange} (h : x.escapes = true) :
    ∃ f, e.decision? x = some (.error f) := by
  cases x with
  | spawn command r =>
    replace h : r.fate.escapes Trouble.isSystem = true := h
    show ∃ f, some (e.localOutcome command r) = some (.error f)
    unfold localOutcome
    cases hfate : r.fate with
    | interrupted | raises _ _ => exact ⟨_, rfl⟩
    | ends | hangs | refused _ =>
      rw [hfate] at h
      cases h
  | exec c command r =>
    replace h : r.fate.escapes Trouble.isService = true := h
    show ∃ f, some (e.outcome command r) = some (.error f)
    unfold outcome
    cases hfate : r.fate with
    | interrupted => exact ⟨_, rfl⟩
    | raises trouble message =>
      rw [hfate] at h
      simp only [Fate.escapes, Bool.not_eq_true'] at h
      exact ⟨.raised trouble message, congrArg some (if_neg (Bool.not_eq_true _ ▸ h))⟩
    | ends | hangs | refused _ =>
      rw [hfate] at h
      cases h
  | connect _ | find _ _ | kill | disconnect => cases h

/-- A call that starts a program decides over its command. -/
theorem exists_decision (e : Executor) {x : Exchange} {command : List Text}
    (h : x.commandLine? = some command) : ∃ r, e.decision? x = some r := by
  cases x with
  | spawn _ _ | exec _ _ _ => exact ⟨_, rfl⟩
  | kill | connect _ | find _ _ | disconnect => cases h

/-- An exception or a stop comes out of a command exactly when it comes out of one of its calls. -/
theorem Answers.escapes_iff {t : Turn} (ht : Answers e t) :
    (∃ x ∈ t.exchanges, x.escapes = true) ↔ ∃ f, t.result = .error f ∧ ∀ g, f ≠ .command g := by
  constructor
  · rintro ⟨x, hx, hescapes⟩
    obtain ⟨f, hf⟩ := e.exists_of_escapes hescapes
    exact ⟨f, ht.decided x hx _ hf, (Executor.escapes_iff hf).mp hescapes⟩
  · rintro ⟨f, hresult, hf⟩
    obtain hstarted | ⟨-, g, hg⟩ := ht.started
    · have hmem : e.program :: t.arguments ∈ commandLines t.exchanges := by
        rw [hstarted]
        exact List.mem_singleton_self _
      obtain ⟨x, hx, hline⟩ := List.mem_filterMap.mp hmem
      obtain ⟨r, hr⟩ := e.exists_decision hline
      obtain rfl := (ht.decided x hx r hr).symm.trans hresult
      exact ⟨x, hx, (Executor.escapes_iff hr).mpr hf⟩
    · rw [hg] at hresult
      exact absurd (Except.error.inj hresult).symm (hf g)

/-- An exit code other than zero, or a failure of the command. -/
def Fails (r : Except Failure (Int × Text)) : Prop :=
  (∃ code output, r = .ok (code, output) ∧ code ≠ 0) ∨ ∃ f, r = .error (.command f)

theorem fails_of_isFailure {x : Exchange} (h : x.isFailure = true) : ∃ r, e.decision? x = some r ∧ Fails r := by
  cases x with
  | spawn command r =>
    refine ⟨_, rfl, ?_⟩
    unfold localOutcome startFailure
    unfold Exchange.isFailure at h
    cases hfate : r.fate with
    | ends =>
      simp only [hfate, decide_eq_true_eq] at h
      exact .inl ⟨_, _, rfl, h⟩
    | hangs => exact .inr ⟨_, rfl⟩
    | refused reason => exact .inr ⟨_, rfl⟩
    | interrupted =>
      simp only [hfate, Bool.false_eq_true] at h
    | raises trouble message =>
      simp only [hfate] at h
      exact .inr ⟨_, congrArg Except.error (if_pos h)⟩
  | exec c command r =>
    refine ⟨_, rfl, ?_⟩
    unfold outcome
    unfold Exchange.isFailure at h
    cases hfate : r.fate with
    | ends | refused _ =>
      simp only [hfate, decide_eq_true_eq] at h
      exact .inl ⟨_, _, rfl, h⟩
    | hangs => exact .inr ⟨_, rfl⟩
    | interrupted =>
      simp only [hfate, Bool.false_eq_true] at h
    | raises trouble message =>
      simp only [hfate] at h
      exact .inr ⟨_, if_pos h⟩
  | connect answer =>
    cases answer with
    | unavailable => exact ⟨_, rfl, .inr ⟨_, rfl⟩⟩
    | found _ | notFound => cases h
  | find name answer =>
    cases answer with
    | found _ => cases h
    | notFound | unavailable => exact ⟨_, rfl, .inr ⟨_, rfl⟩⟩
  | kill | disconnect => cases h

/-! ## Reports -/

/-- What a command gives as a report: its output, if it ended well. -/
def Turn.report (t : Turn) : Except Failure Text :=
  match t.result with
  | .error f => .error f
  | .ok (code, output) =>
    if code ≠ 0 then .error (.command (.exited t.arguments code output)) else .ok output

theorem Turn.report_eq_ok {t : Turn} {output : Text} :
    t.report = .ok output ↔ t.result = .ok (0, output) := by
  unfold report
  rcases t.result with f | ⟨code, text⟩
  · exact iff_of_false nofun nofun
  · by_cases hcode : code = 0
    · subst hcode
      simp
    · simp [hcode]

/-- A command that did not start its program or had a failing run gives no report. -/
theorem Answers.report_of_failure {t : Turn} (ht : Answers e t)
    (h : commandLines t.exchanges = [] ∨ ∃ x ∈ t.exchanges, x.isFailure = true) :
    ∃ f, t.report = .error (.command f) := by
  have hfails : Fails t.result := by
    obtain hunstarted | ⟨x, hx, hfailure⟩ := h
    · obtain hstarted | ⟨-, hf⟩ := ht.started
      · rw [hunstarted] at hstarted
        cases hstarted
      · exact .inr hf
    · obtain ⟨r, hr, hfails⟩ := fails_of_isFailure (e := e) hfailure
      rwa [ht.decided x hx r hr]
  unfold Turn.report
  obtain ⟨code, output, hresult, hcode⟩ | ⟨f, hresult⟩ := hfails
  · rw [hresult]
    exact ⟨_, if_pos hcode⟩
  · rw [hresult]
    exact ⟨f, rfl⟩

/-- A report is the turn of its command. -/
theorem report_leads (e : Executor) (s : Site) (json : Bool) :
    Leads (e.report json) s (e.turn s (statisticsArguments json)).exchanges
      (e.turn s (statisticsArguments json)).report (e.turn s (statisticsArguments json)).after := by
  have hrun := e.turn_leads s (statisticsArguments json)
  unfold report Turn.report
  rcases hresult : (e.turn s (statisticsArguments json)).result with f | ⟨code, output⟩
  · rw [hresult] at hrun
    exact leads_bind_error hrun
  · rw [hresult] at hrun
    rw [← List.append_nil (e.turn s (statisticsArguments json)).exchanges]
    refine leads_bind hrun ?_
    by_cases hcode : code = 0
    · simp only [hcode, ne_eq, not_true_eq_false, if_false]
      exact leads_pure output _
    · simp only [hcode, ne_eq, not_false_eq_true, if_true]
      exact leads_bind_error (leads_throw _ _)

end Executor

end CakeMonitor
