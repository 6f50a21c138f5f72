import CakeMonitor.Command.Collector
import CakeMonitor.Command.Host
import CakeMonitor.Proofs.Command.Exchanges

/-!
# No local process is left behind

A local process that does not end by itself is killed before its run is given up. So none outlives the
computation that started it, be it that a timeout strikes or that the loop is stopped.

* `processes`: how many local processes run after some exchanges.
* `Tidy`: a computation that leaves as many as there were.
* `Executor.runLocally_leads`: all that a local run does, and what it comes to.
* `Collector.tidy_collect`: collecting is one.
* `Collector.collect_cutOff`: it ends when its program is cut off.
-/

namespace CakeMonitor

/-- Whether a process goes on until it is killed. -/
def Fate.lingers : Fate → Bool
  | .hangs | .interrupted => true
  | .ends | .refused _ | .raises _ _ => false

/-- How many local processes run after one more exchange. -/
def Exchange.processes (running : Nat) : Exchange → Nat
  | .spawn _ run => if run.fate.lingers then running + 1 else running
  | .kill => running - 1
  | .connect _ | .find _ _ | .exec _ _ _ | .disconnect => running

/-- How many local processes run after some exchanges. -/
def processes (xs : List Exchange) : Nat := xs.foldl Exchange.processes 0

/-- The exchanges leave as many local processes as there were. -/
def LeaveNone (xs : List Exchange) : Prop := ∀ n, xs.foldl Exchange.processes n = n

theorem leaveNone_nil : LeaveNone [] := fun _ => rfl

theorem LeaveNone.append {xs ys : List Exchange} (hx : LeaveNone xs) (hy : LeaveNone ys) :
    LeaveNone (xs ++ ys) := by
  intro n
  rw [List.foldl_append, hx, hy]

/-- **A tidy computation** leaves as many local processes as there were, wherever it is made. -/
def Tidy {α : Type} (m : Act α) : Prop :=
  ∀ s, ∃ xs r s', Leads m s xs r s' ∧ LeaveNone xs

/-! ## Steps -/

section Steps

variable {α β : Type} {m : Act α}

theorem tidy_pure (a : α) : Tidy (pure a) := fun s => ⟨[], .ok a, s, leads_pure a s, leaveNone_nil⟩

theorem tidy_throw (e : Failure) : Tidy (throw e : Act α) :=
  fun s => ⟨[], .error e, s, leads_throw e s, leaveNone_nil⟩

theorem tidy_get : Tidy get := fun s => ⟨[], .ok s, s, leads_get s, leaveNone_nil⟩

theorem tidy_modify {g : Site → Site} (h : ∀ s, (g s).world = s.world) : Tidy (modify g) :=
  fun s => ⟨[], .ok (), g s, leads_modify (h s), leaveNone_nil⟩

theorem tidy_bind {f : α → Act β} (hm : Tidy m) (hf : ∀ a, Tidy (f a)) : Tidy (m >>= f) := by
  intro s
  obtain ⟨xs, r, s', hleads, hxs⟩ := hm s
  cases r with
  | error e => exact ⟨xs, .error e, s', leads_bind_error hleads, hxs⟩
  | ok a =>
    obtain ⟨ys, r', s'', hrest, hys⟩ := hf a s'
    exact ⟨xs ++ ys, r', s'', leads_bind hleads hrest, hxs.append hys⟩

theorem tidy_ite {c : Prop} [Decidable c] {n : Act α} (hm : Tidy m) (hn : Tidy n) :
    Tidy (if c then m else n) := by
  split
  · exact hm
  · exact hn

theorem tidy_connect : Tidy (Site.lookup .connect) := by
  intro s
  obtain ⟨answer, s', hleads, -⟩ := leads_connect s
  exact ⟨_, _, s', hleads, fun _ => rfl⟩

theorem tidy_find (name : Text) : Tidy (Site.lookup (.find name)) := by
  intro s
  obtain ⟨answer, s', hleads, -⟩ := leads_find name s
  exact ⟨_, _, s', hleads, fun _ => rfl⟩

theorem tidy_exec (container : Container) (command : List Text) :
    Tidy (Site.run (.exec container command)) := by
  intro s
  obtain ⟨r, s', hleads, -⟩ := leads_exec container command s
  exact ⟨_, _, s', hleads, fun _ => rfl⟩

end Steps

/-! ## Running the program -/

namespace Executor

theorem tidy_findContainer (name : Text) : Tidy (findContainer name) := by
  have hconnect : Tidy connect := by
    unfold connect
    refine tidy_bind tidy_get fun s => tidy_ite ?_ (tidy_pure ())
    refine tidy_bind tidy_connect fun answer => tidy_ite ?_ (tidy_modify fun _ => rfl)
    exact tidy_bind (tidy_throw _) fun _ => tidy_modify fun _ => rfl
  unfold findContainer
  refine tidy_bind tidy_get fun s => ?_
  cases s.container with
  | some known => exact tidy_pure known
  | none =>
    refine tidy_bind hconnect fun _ => tidy_bind (tidy_find name) fun answer => ?_
    cases answer with
    | found new => exact tidy_bind (tidy_modify fun _ => rfl) fun _ => tidy_pure new
    | notFound => exact tidy_throw _
    | unavailable => exact tidy_throw _

theorem tidy_runInContainer (e : Executor) (name : Text) (command : List Text) :
    Tidy (e.runInContainer name command) := by
  unfold runInContainer
  refine tidy_bind (tidy_findContainer name) fun c => tidy_bind (tidy_exec c command) fun r => ?_
  cases r.fate with
  | ends => exact tidy_pure _
  | refused reason => exact tidy_pure _
  | hangs => exact tidy_throw _
  | interrupted => exact tidy_throw _
  | raises trouble message =>
    exact tidy_ite (tidy_bind (tidy_modify fun _ => rfl) fun _ => tidy_throw _) (tidy_throw _)

/-- What a local run comes to. -/
def localOutcome (e : Executor) (command : List Text) (r : Run) : Except Failure (Int × Text) :=
  match r.fate with
  | .ends => .ok (r.exit, Utf8.decodeLossy (output r))
  | .hangs => .error (.command (.timedOut command e.timeout))
  | .interrupted => .error .stopped
  | .refused reason => .error (.command (.notStarted e.program reason))
  | .raises trouble message => .error (e.startFailure trouble message)

/-- The calls of a local run: a process that lingers is killed. -/
def localExchanges (command : List Text) (r : Run) : List Exchange :=
  .spawn command r :: if r.fate.lingers then [.kill] else []

/-- **All that a local run does** is said by how its process goes on. -/
theorem runLocally_leads (e : Executor) (command : List Text) (s : Site) : ∃ r s',
    Leads (e.runLocally command) s (localExchanges command r) (e.localOutcome command r) s' := by
  obtain ⟨r, s₁, hspawn, -⟩ := leads_spawn command s
  obtain ⟨s₂, hkill, -⟩ := leads_kill s₁
  unfold runLocally localExchanges localOutcome startFailure
  cases hfate : r.fate with
  | ends =>
    refine ⟨r, s₁, leads_bind hspawn ?_⟩
    rw [hfate]
    exact leads_pure _ s₁
  | hangs =>
    refine ⟨r, s₂, leads_bind hspawn ?_⟩
    rw [hfate]
    exact leads_bind hkill (leads_throw _ s₂)
  | interrupted =>
    refine ⟨r, s₂, leads_bind hspawn ?_⟩
    rw [hfate]
    exact leads_bind hkill (leads_throw _ s₂)
  | refused reason =>
    refine ⟨r, s₁, leads_bind hspawn ?_⟩
    rw [hfate]
    exact leads_throw _ s₁
  | raises trouble message =>
    refine ⟨r, s₁, leads_bind hspawn ?_⟩
    rw [hfate]
    cases htrouble : trouble.isSystem with
    | true =>
      simp only [htrouble, if_true]
      exact leads_throw _ s₁
    | false =>
      simp only [htrouble, Bool.false_eq_true, if_false]
      exact leads_throw _ s₁

theorem leaveNone_localExchanges (command : List Text) (r : Run) :
    LeaveNone (localExchanges command r) := by
  intro n
  unfold localExchanges
  cases hfate : r.fate.lingers with
  | true =>
    show (if r.fate.lingers then n + 1 else n) - 1 = n
    rw [if_pos hfate, Nat.add_sub_cancel]
  | false => exact if_neg (Bool.eq_false_iff.mp hfate)

/-- **A local process that lingers is killed.** -/
theorem tidy_runLocally (e : Executor) (command : List Text) : Tidy (e.runLocally command) := by
  intro s
  obtain ⟨r, s', hleads⟩ := e.runLocally_leads command s
  exact ⟨_, _, s', hleads, leaveNone_localExchanges command r⟩

theorem tidy_run (e : Executor) (arguments : List Text) : Tidy (e.run arguments) := by
  unfold run
  cases e.container with
  | none => exact e.tidy_runLocally _
  | some name => exact e.tidy_runInContainer name _

theorem tidy_report (e : Executor) (json : Bool) : Tidy (e.report json) := by
  unfold report
  refine tidy_bind (e.tidy_run _) fun (code, output) => ?_
  exact tidy_ite (tidy_bind (tidy_throw _) fun _ => tidy_pure output) (tidy_pure output)

end Executor

namespace Collector

theorem tidy_collectPrinted (c : Collector) (now : Timestamp) : Tidy (c.collectPrinted now) := by
  unfold collectPrinted
  refine tidy_bind (c.executor.tidy_report false) fun report => ?_
  cases Report.read now report with
  | error e => exact tidy_throw e
  | ok snapshots => exact tidy_pure snapshots

/-- **Collecting leaves no local process behind.** -/
theorem tidy_collect (c : Collector) (now : Timestamp) : Tidy (c.collect now) := by
  unfold collect
  refine tidy_ite (c.tidy_collectPrinted now) ?_
  refine tidy_bind (c.executor.tidy_report true) fun report => ?_
  cases Structured.ofText now report with
  | ok snapshots => exact tidy_pure snapshots
  | error e => exact tidy_ite (c.tidy_collectPrinted now) (tidy_throw _)

/-- So there are none after a collection on a site. -/
theorem leaveNone_collect (c : Collector) (now : Timestamp) (s : Site) :
    LeaveNone (s.exchanges (c.collect now)) := by
  obtain ⟨xs, r, s', hleads, hxs⟩ := c.tidy_collect now s
  rwa [hleads.exchanges_eq]

end Collector

/-! ## A run that is cut off -/

/-- The next program runs on until the loop is stopped; the container service answers. -/
def World.cutOff (w : World) : World :=
  { w with runs := [{ fate := .interrupted }], lookups := [.found 0] }

theorem Executor.run_cutOff (e : Executor) (arguments : List Text) (s : Site) :
    ∃ s', (e.run arguments).run { s with world := s.world.cutOff } = .error .stopped s' := by
  unfold run
  rcases s with ⟨world, connected, container⟩
  cases e.container with
  | none => exact ⟨_, rfl⟩
  | some name =>
    cases container with
    | some known => exact ⟨_, rfl⟩
    | none =>
      cases connected with
      | false => exact ⟨_, rfl⟩
      | true => exact ⟨_, rfl⟩

theorem Executor.report_cutOff (e : Executor) (json : Bool) (s : Site) :
    ∃ s', (e.report json).run { s with world := s.world.cutOff } = .error .stopped s' := by
  obtain ⟨s', hrun⟩ := e.run_cutOff (statisticsArguments json) s
  refine ⟨s', ?_⟩
  unfold report
  rw [EStateM.run_bind, hrun]

/-- A collection ends when its program is cut off. -/
theorem Collector.collect_cutOff (c : Collector) (now : Timestamp) (s : Site) :
    ∃ s', (c.collect now).run { s with world := s.world.cutOff } = .error .stopped s' := by
  obtain ⟨s', hreport⟩ := c.executor.report_cutOff c.json s
  refine ⟨s', ?_⟩
  unfold collect collectPrinted
  cases hjson : c.json with
  | false =>
    rw [hjson] at hreport
    exact (EStateM.run_bind ..).trans (by rw [hreport])
  | true =>
    rw [hjson] at hreport
    exact (EStateM.run_bind ..).trans (by rw [hreport])

end CakeMonitor
