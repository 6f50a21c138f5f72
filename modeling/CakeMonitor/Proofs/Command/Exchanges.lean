import CakeMonitor.Command.Executor

/-!
# Calls and their answers

A site keeps the calls that were made, and the outcomes that are still to come. Which call met which outcome
follows from both: the calls are made again, in the same order, in the world as it was.

* `Exchange`: a call with its answer; `World.answers` gives them for some calls.
* `Site.result`, `Site.after`, `Site.exchanges`: what a computation gives, leaves and exchanges.
* `Leads`: all three of one computation; the lemmas below it put computations together.
* `Executor.Connecting`, `Executor.Finding`: all that looking up the container can come to.
* `Executor.Turn`, `Executor.turns`: what commands come to that follow one another.
-/

namespace CakeMonitor

/-- A call with its answer. -/
inductive Exchange where
  | spawn (command : List Text) (run : Run)
  | kill
  | connect (answer : Lookup)
  | find (name : Text) (answer : Lookup)
  | exec (container : Container) (command : List Text) (run : Run)
  | disconnect
  deriving DecidableEq

namespace World

/-- The answer to a call, and the world after it. -/
def answer (w : World) : Call → Exchange × World
  | .spawn command => (.spawn command (w.run (.spawn command)).1, (w.run (.spawn command)).2)
  | .kill => (.kill, w.note .kill)
  | .connect => (.connect (w.lookup .connect).1, (w.lookup .connect).2)
  | .find name => (.find name (w.lookup (.find name)).1, (w.lookup (.find name)).2)
  | .exec container command =>
    (.exec container command (w.run (.exec container command)).1, (w.run (.exec container command)).2)
  | .disconnect => (.disconnect, w.note .disconnect)

/-- The answers to some calls in order, and the world after them. -/
def answers (w : World) : List Call → List Exchange × World
  | [] => ([], w)
  | c :: cs => ((w.answer c).1 :: ((w.answer c).2.answers cs).1, ((w.answer c).2.answers cs).2)

theorem calls_answer (w : World) (c : Call) : (w.answer c).2.calls = w.calls ++ [c] := by
  cases c <;> rfl

theorem calls_answers (w : World) (cs : List Call) : (w.answers cs).2.calls = w.calls ++ cs := by
  induction cs generalizing w with
  | nil => exact (List.append_nil _).symm
  | cons c cs ih =>
    show ((w.answer c).2.answers cs).2.calls = _
    rw [ih, calls_answer, List.append_assoc]
    rfl

theorem answers_append (w : World) (cs ds : List Call) : w.answers (cs ++ ds)
    = ((w.answers cs).1 ++ ((w.answers cs).2.answers ds).1, ((w.answers cs).2.answers ds).2) := by
  induction cs generalizing w with
  | nil => rfl
  | cons c cs ih =>
    show ((w.answer c).1 :: ((w.answer c).2.answers (cs ++ ds)).1,
      ((w.answer c).2.answers (cs ++ ds)).2) = _
    rw [ih]
    rfl

end World

/-! ## Computations -/

section Computations

variable {α β : Type}

namespace Site

/-- What a computation gives. -/
def result (s : Site) (m : Act α) : Except Failure α :=
  match m.run s with
  | .ok a _ => .ok a
  | .error e _ => .error e

/-- The site after a computation. -/
def after (s : Site) (m : Act α) : Site :=
  match m.run s with
  | .ok _ s' => s'
  | .error _ s' => s'

/-- The calls of a computation with their answers. -/
def exchanges (s : Site) (m : Act α) : List Exchange :=
  (s.world.answers ((s.after m).world.calls.drop s.world.calls.length)).1

/-- The end of a computation on a site. -/
def ending (s : Site) : Except Failure α → EStateM.Result Failure Site α
  | .ok a => .ok a s
  | .error e => .error e s

end Site

/-- **What a computation does on a site**: these calls with their answers, this result, and the site after
it. Its world is the one that the calls lead to. -/
structure Leads (m : Act α) (s : Site) (xs : List Exchange) (result : Except Failure α) (s' : Site) :
    Prop where
  run : m.run s = s'.ending result
  world : ∃ calls, s.world.answers calls = (xs, s'.world)

variable {m : Act α} {f : α → Act β} {s s' s'' : Site} {xs ys : List Exchange}

theorem Leads.result_eq {r : Except Failure α} (h : Leads m s xs r s') : s.result m = r := by
  unfold Site.result
  rw [h.run]
  cases r <;> rfl

theorem Leads.after_eq {r : Except Failure α} (h : Leads m s xs r s') : s.after m = s' := by
  unfold Site.after
  rw [h.run]
  cases r <;> rfl

theorem Leads.exchanges_eq {r : Except Failure α} (h : Leads m s xs r s') : s.exchanges m = xs := by
  obtain ⟨calls, hcalls⟩ := h.world
  have hmade := s.world.calls_answers calls
  rw [hcalls] at hmade
  unfold Site.exchanges
  rw [h.after_eq, hmade, List.drop_left, hcalls]

theorem leads_pure (a : α) (s : Site) : Leads (pure a) s [] (.ok a) s := ⟨rfl, [], rfl⟩

theorem leads_throw (e : Failure) (s : Site) : Leads (throw e : Act α) s [] (.error e) s :=
  ⟨rfl, [], rfl⟩

theorem leads_get (s : Site) : Leads get s [] (.ok s) s := ⟨rfl, [], rfl⟩

/-- What is kept between runs may change without a call. -/
theorem leads_modify {g : Site → Site} (h : (g s).world = s.world) :
    Leads (modify g) s [] (.ok ()) (g s) :=
  ⟨rfl, [], by rw [h]; rfl⟩

/-- One computation behind another. -/
theorem leads_bind {a : α} {r : Except Failure β} (hm : Leads m s xs (.ok a) s')
    (hf : Leads (f a) s' ys r s'') : Leads (m >>= f) s (xs ++ ys) r s'' := by
  obtain ⟨calls, hcalls⟩ := hm.world
  obtain ⟨more, hmore⟩ := hf.world
  refine ⟨?_, calls ++ more, ?_⟩
  · rw [EStateM.run_bind, hm.run]
    exact hf.run
  · rw [World.answers_append, hcalls, hmore]

/-- Nothing comes behind a failure. -/
theorem leads_bind_error {e : Failure} (hm : Leads m s xs (.error e) s') :
    Leads (m >>= f) s xs (.error e) s' := by
  refine ⟨?_, hm.world⟩
  rw [EStateM.run_bind, hm.run]
  rfl

/-- What comes behind a computation that gives a value without a call. -/
theorem leads_bind_silent {a : α} {r : Except Failure β} (hm : Leads m s [] (.ok a) s')
    (hf : Leads (f a) s' ys r s'') : Leads (m >>= f) s ys r s'' := leads_bind hm hf

/-- A computation that gives a value needs no rescue. -/
theorem leads_tryCatch {g : Failure → Act α} {a : α} (h : Leads m s xs (.ok a) s') :
    Leads (tryCatch m g) s xs (.ok a) s' := by
  have hm : m s = .ok a s' := h.run
  refine ⟨?_, h.world⟩
  show EStateM.tryCatch m g s = .ok a s'
  delta EStateM.tryCatch
  simp only [hm]

/-- What comes in place of a failure, without a call. -/
theorem leads_tryCatch_error {g : Failure → Act α} {e : Failure} {r : Except Failure α}
    (hm : Leads m s xs (.error e) s') (hg : Leads (g e) s' [] r s'') :
    Leads (tryCatch m g) s xs r s'' := by
  have hfails : m s = .error e s' := hm.run
  obtain ⟨calls, hcalls⟩ := hm.world
  obtain ⟨more, hmore⟩ := hg.world
  refine ⟨?_, calls ++ more, ?_⟩
  · show EStateM.tryCatch m g s = _
    delta EStateM.tryCatch
    simp only [hfails]
    exact hg.run
  · rw [World.answers_append, hcalls, hmore, List.append_nil]

/-- A value is made into another one. -/
theorem leads_map {g : α → β} {r : Except Failure α} (h : Leads m s xs r s') :
    Leads (g <$> m) s xs (r.map g) s' := by
  rw [map_eq_pure_bind, ← List.append_nil xs]
  cases r with
  | ok a => exact leads_bind h (leads_pure (g a) s')
  | error e =>
    rw [List.append_nil]
    exact leads_bind_error h

end Computations

/-! ## Calls -/

/-- The sites keep the same connection and the same container. -/
structure Site.SameKept (s s' : Site) : Prop where
  connected : s'.connected = s.connected
  container : s'.container = s.container

theorem leads_spawn (command : List Text) (s : Site) : ∃ r s',
    Leads (Site.run (.spawn command)) s [.spawn command r] (.ok r) s' ∧ s.SameKept s' :=
  ⟨_, _, ⟨rfl, [.spawn command], rfl⟩, rfl, rfl⟩

theorem leads_exec (container : Container) (command : List Text) (s : Site) : ∃ r s',
    Leads (Site.run (.exec container command)) s [.exec container command r] (.ok r) s' ∧
      s.SameKept s' :=
  ⟨_, _, ⟨rfl, [.exec container command], rfl⟩, rfl, rfl⟩

theorem leads_connect (s : Site) : ∃ answer s',
    Leads (Site.lookup .connect) s [.connect answer] (.ok answer) s' ∧ s.SameKept s' :=
  ⟨_, _, ⟨rfl, [.connect], rfl⟩, rfl, rfl⟩

theorem leads_find (name : Text) (s : Site) : ∃ answer s',
    Leads (Site.lookup (.find name)) s [.find name answer] (.ok answer) s' ∧ s.SameKept s' :=
  ⟨_, _, ⟨rfl, [.find name], rfl⟩, rfl, rfl⟩

theorem leads_kill (s : Site) :
    ∃ s', Leads (Site.note .kill) s [.kill] (.ok ()) s' ∧ s.SameKept s' :=
  ⟨_, ⟨rfl, [.kill], rfl⟩, rfl, rfl⟩

/-! ## Looking up the container -/

namespace Lookup

/-- What an answer says about a container that is looked up. -/
def outcome (name : Text) : Lookup → Except Failure Container
  | .found c => .ok c
  | .notFound => .error (.command (.noContainer name))
  | .unavailable => .error (.command (.noService "socket missing"))

/-- A container that is found is kept. -/
def keptIn (s : Site) : Lookup → Site
  | .found c => { s with container := some c }
  | .notFound | .unavailable => s

end Lookup

namespace Executor

/-- All that connecting can come to: there is a connection, or the service is asked for one. -/
inductive Connecting (s : Site) : List Exchange → Except Failure Unit → Site → Prop
  | already (connected : s.connected = true) : Connecting s [] (.ok ()) s
  | refused {s' : Site} (unconnected : s.connected = false) (kept : s.SameKept s') :
    Connecting s [.connect .unavailable] (.error (.command (.noService "socket missing"))) s'
  | made {answer : Lookup} {s' : Site} (unconnected : s.connected = false)
    (answered : answer ≠ .unavailable) (kept : s.SameKept s') :
    Connecting s [.connect answer] (.ok ()) { s' with connected := true }

/-- All that looking up the container can come to: it is known, or there is no connection, or the service is
asked for it. -/
inductive Finding (name : Text) (s : Site) : List Exchange → Except Failure Container → Site → Prop
  | known {c : Container} (known : s.container = some c) : Finding name s [] (.ok c) s
  | unconnected {xs : List Exchange} {f : Failure} {s' : Site} (unknown : s.container = none)
    (connecting : Connecting s xs (.error f) s') : Finding name s xs (.error f) s'
  | asked {xs : List Exchange} {answer : Lookup} {s₁ s₂ : Site} (unknown : s.container = none)
    (connecting : Connecting s xs (.ok ()) s₁) (kept : s₁.SameKept s₂) :
    Finding name s (xs ++ [.find name answer]) (answer.outcome name) (answer.keptIn s₂)

theorem connect_leads (s : Site) :
    ∃ xs result s', Leads connect s xs result s' ∧ Connecting s xs result s' := by
  unfold connect
  cases hconnected : s.connected with
  | true =>
    refine ⟨_, _, _, leads_bind_silent (leads_get s) ?_, .already hconnected⟩
    rw [hconnected]
    exact leads_pure () s
  | false =>
    obtain ⟨answer, s₁, hask, hkept⟩ := leads_connect s
    by_cases hanswer : answer = .unavailable
    · subst hanswer
      refine ⟨_, _, _, leads_bind_silent (leads_get s) ?_, .refused hconnected hkept⟩
      rw [hconnected]
      exact leads_bind hask (leads_bind_error (leads_throw _ s₁))
    · refine ⟨_, _, _, leads_bind_silent (leads_get s) ?_, .made hconnected hanswer hkept⟩
      rw [hconnected]
      refine leads_bind hask ?_
      rw [if_neg hanswer]
      exact leads_modify rfl

theorem findContainer_leads (name : Text) (s : Site) :
    ∃ xs result s', Leads (findContainer name) s xs result s' ∧ Finding name s xs result s' := by
  unfold findContainer
  cases hcontainer : s.container with
  | some c =>
    refine ⟨_, _, _, leads_bind_silent (leads_get s) ?_, .known hcontainer⟩
    rw [hcontainer]
    exact leads_pure c s
  | none =>
    obtain ⟨xs, connected, s₁, hconnect, hconnecting⟩ := connect_leads s
    cases connected with
    | error f =>
      refine ⟨_, _, _, leads_bind_silent (leads_get s) ?_, .unconnected hcontainer hconnecting⟩
      rw [hcontainer]
      exact leads_bind_error hconnect
    | ok _ =>
      obtain ⟨answer, s₂, hask, hkept⟩ := leads_find name s₁
      refine ⟨xs ++ [.find name answer], answer.outcome name, answer.keptIn s₂,
        leads_bind_silent (leads_get s) ?_, .asked hcontainer hconnecting hkept⟩
      rw [hcontainer]
      refine leads_bind hconnect (leads_bind hask ?_)
      cases answer with
      | found c => exact leads_bind_silent (leads_modify rfl) (leads_pure c _)
      | notFound | unavailable => exact leads_throw _ s₂

/-! ## Commands in a row -/

section Runs

variable {e : Executor} (arguments : List Text)

theorem run_locally (hlocal : e.container = none) :
    e.run arguments = e.runLocally (e.program :: arguments) := by
  unfold run
  rw [hlocal]

theorem run_inContainer {name : Text} (hname : e.container = some name) :
    e.run arguments = e.runInContainer name (e.program :: arguments) := by
  unfold run
  rw [hname]

end Runs

/-- One command of a sequence: its calls with their answers, what it gives, and what is kept after it. -/
structure Turn where
  arguments : List Text
  exchanges : List Exchange
  result : Except Failure (Int × Text)
  after : Site

/-- The turn of a command on a site. -/
def turn (e : Executor) (s : Site) (arguments : List Text) : Turn where
  arguments
  exchanges := s.exchanges (e.run arguments)
  result := s.result (e.run arguments)
  after := s.after (e.run arguments)

/-- The turns of some commands, one after another. -/
def turns (e : Executor) (s : Site) : List (List Text) → List Turn
  | [] => []
  | arguments :: rest => e.turn s arguments :: e.turns (e.turn s arguments).after rest

/-- The turn of a command that leads to this. -/
theorem turn_eq {e : Executor} {s s' : Site} {arguments : List Text} {xs : List Exchange}
    {result : Except Failure (Int × Text)} (h : Leads (e.run arguments) s xs result s') :
    e.turn s arguments = ⟨arguments, xs, result, s'⟩ := by
  unfold turn
  rw [h.exchanges_eq, h.result_eq, h.after_eq]

end Executor

end CakeMonitor
