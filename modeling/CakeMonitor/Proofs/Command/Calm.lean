import CakeMonitor.Command.Collector

/-!
# Collecting without interruption

Collecting is cut off only when the poll loop is stopped while the program runs. As long as nobody stops
the loop, every collection ends on its own, with snapshots or with a failure that can be described.

* `Site.Calm`: the loop is not stopped during any run to come.
* `Calmly`: a computation that keeps the site calm and is not cut off.
* `Collector.calmly_collect`: collecting is such a computation.
-/

namespace CakeMonitor

/-- The loop is not stopped during any run to come. -/
def Site.Calm (s : Site) : Prop := ∀ r ∈ s.world.runs, r.fate ≠ .interrupted

instance (s : Site) : Decidable s.Calm :=
  inferInstanceAs (Decidable (∀ r ∈ s.world.runs, r.fate ≠ .interrupted))

/-- On a calm site the computation keeps the site calm and is not cut off, and its result is as
described. -/
def Calmly {α : Type} (m : Act α) (Q : α → Prop) : Prop :=
  ∀ s : Site, s.Calm →
    match m.run s with
    | .ok a s' => s'.Calm ∧ Q a
    | .error e s' => s'.Calm ∧ e ≠ .stopped

/-- The next of outcomes that are all of a kind is of that kind, and so are those that remain. -/
theorem World.next_induct {α : Type} {P : α → Prop} (usual : α) {outcomes : List α} (husual : P usual)
    (h : ∀ a ∈ outcomes, P a) :
    P (next usual outcomes).1 ∧ ∀ a ∈ (next usual outcomes).2, P a := by
  match outcomes with
  | [] => exact ⟨husual, h⟩
  | [a] => exact ⟨h a List.mem_cons_self, h⟩
  | a :: b :: as => exact ⟨h a List.mem_cons_self, fun c hc => h c (List.mem_cons_of_mem a hc)⟩

/-! ## Steps -/

section Steps

variable {α β : Type} {m : Act α} {Q : α → Prop} {R : β → Prop}

theorem calmly_pure {a : α} (h : Q a) : Calmly (pure a) Q := by
  intro s hs
  exact ⟨hs, h⟩

theorem calmly_bind {f : α → Act β} (hm : Calmly m Q) (hf : ∀ a, Q a → Calmly (f a) R) :
    Calmly (m >>= f) R := by
  intro s hs
  have hstep := hm s hs
  rw [EStateM.run_bind]
  cases hrun : m.run s with
  | ok a s' =>
    rw [hrun] at hstep
    exact hf a hstep.2 s' hstep.1
  | error e s' =>
    rw [hrun] at hstep
    exact hstep

theorem calmly_throw {e : Failure} (h : e ≠ .stopped) : Calmly (throw e : Act α) Q := by
  intro s hs
  exact ⟨hs, h⟩

/-- Nothing comes after a failure. -/
theorem calmly_throw_bind {e : Failure} {f : α → Act β} (h : e ≠ .stopped) :
    Calmly (throw e >>= f) R := by
  intro s hs
  exact ⟨hs, h⟩

theorem calmly_get : Calmly get fun _ => True := by
  intro s hs
  exact ⟨hs, trivial⟩

theorem calmly_modify {f : Site → Site} (h : ∀ s, s.Calm → (f s).Calm) :
    Calmly (modify f) fun _ => True := by
  intro s hs
  exact ⟨h s hs, trivial⟩

theorem calmly_ite {c : Prop} [Decidable c] {n : Act α} (hm : Calmly m Q) (hn : Calmly n Q) :
    Calmly (if c then m else n) Q := by
  split
  · exact hm
  · exact hn

theorem calmly_note (c : Call) : Calmly (Site.note c) fun _ => True :=
  calmly_modify fun _ hs => hs

/-- A run that was asked for is not one during which the loop is stopped. -/
theorem calmly_run (c : Call) : Calmly (Site.run c) fun r => r.fate ≠ .interrupted := by
  intro s hs
  obtain ⟨hrun, hruns⟩ := World.next_induct {} (by decide) hs
  exact ⟨hruns, hrun⟩

theorem calmly_lookup (c : Call) : Calmly (Site.lookup c) fun _ => True := by
  intro s hs
  exact ⟨hs, trivial⟩

end Steps

/-! ## Running the program -/

namespace Executor

theorem calmly_connect : Calmly connect fun _ => True := by
  have hconnected : Calmly (modify fun s : Site => { s with connected := true }) fun _ => True :=
    calmly_modify fun _ hs => hs
  unfold connect
  refine calmly_bind calmly_get fun s _ => calmly_ite ?_ (calmly_pure trivial)
  exact calmly_bind (calmly_lookup _) fun l _ => calmly_ite (calmly_throw_bind nofun) hconnected

theorem calmly_findContainer (container : Text) :
    Calmly (findContainer container) fun _ => True := by
  unfold findContainer
  refine calmly_bind calmly_get fun s _ => ?_
  cases s.container with
  | some known => exact calmly_pure trivial
  | none =>
    refine calmly_bind calmly_connect fun _ _ => calmly_bind (calmly_lookup _) fun l _ => ?_
    cases l with
    | found new => exact calmly_bind (calmly_modify fun _ hs => hs) fun _ _ => calmly_pure trivial
    | notFound => exact calmly_throw nofun
    | unavailable => exact calmly_throw nofun

theorem calmly_runInContainer (e : Executor) (container : Text) (command : List Text) :
    Calmly (e.runInContainer container command) fun _ => True := by
  unfold runInContainer
  refine calmly_bind (calmly_findContainer container) fun known _ => ?_
  refine calmly_bind (calmly_run _) fun r hr => ?_
  cases hfate : r.fate with
  | ends => exact calmly_pure trivial
  | hangs => exact calmly_throw nofun
  | interrupted => exact absurd hfate hr
  | refused reason => exact calmly_pure trivial
  | raises trouble message =>
    refine calmly_ite ?_ (calmly_throw nofun)
    exact calmly_bind (calmly_modify fun _ hs => hs) fun _ _ => calmly_throw nofun

theorem calmly_runLocally (e : Executor) (command : List Text) :
    Calmly (e.runLocally command) fun _ => True := by
  unfold runLocally
  refine calmly_bind (calmly_run _) fun r hr => ?_
  cases hfate : r.fate with
  | ends => exact calmly_pure trivial
  | hangs => exact calmly_bind (calmly_note _) fun _ _ => calmly_throw nofun
  | interrupted => exact absurd hfate hr
  | refused reason => exact calmly_throw nofun
  | raises trouble message => exact calmly_ite (calmly_throw nofun) (calmly_throw nofun)

theorem calmly_run (e : Executor) (arguments : List Text) :
    Calmly (e.run arguments) fun _ => True := by
  unfold run
  cases e.container with
  | none => exact e.calmly_runLocally _
  | some container => exact e.calmly_runInContainer container _

theorem calmly_report (e : Executor) (json : Bool) : Calmly (e.report json) fun _ => True := by
  unfold report
  refine calmly_bind (e.calmly_run _) fun (code, output) _ => ?_
  exact calmly_ite (calmly_throw_bind nofun) (calmly_pure trivial)

end Executor

/-! ## Collecting -/

namespace Collector

theorem calmly_collectPrinted (c : Collector) (now : Timestamp) :
    Calmly (c.collectPrinted now) fun _ => True := by
  unfold collectPrinted
  refine calmly_bind (c.executor.calmly_report false) fun report _ => ?_
  unfold Report.read
  cases Report.snapshots now report with
  | error e => exact calmly_throw nofun
  | ok snapshots => exact calmly_pure trivial

/-- **Collecting is not cut off** while nobody stops the loop. -/
theorem calmly_collect (c : Collector) (now : Timestamp) :
    Calmly (c.collect now) fun _ => True := by
  unfold collect
  refine calmly_ite (c.calmly_collectPrinted now) ?_
  refine calmly_bind (c.executor.calmly_report true) fun report _ => ?_
  cases Structured.ofText now report with
  | ok snapshots => exact calmly_pure trivial
  | error e => exact calmly_ite (c.calmly_collectPrinted now) (calmly_throw nofun)

end Collector

end CakeMonitor
