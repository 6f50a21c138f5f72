import CakeMonitor.Proofs.Command.LocalProcesses

/-!
# Commands as courses of events

A command of an executor on this host, as `Executor.run` says it, is one of the courses that the events of the
host may take. So what holds after all events holds of all commands, whatever they meet.

* `Host.Matches`: a command that is over gives what a turn says, by the same calls.
* `Host.completes_course`: each way in which a process goes on is a course of events.
* `Host.exists_turns`: commands in a row are courses in a row.
* `Host.none_left_behind`: what became of the processes and the commands, after any events.
-/

namespace CakeMonitor

/-- A call without its answer. -/
def Exchange.call : Exchange → Call
  | .spawn command _ => .spawn command
  | .kill => .kill
  | .connect _ => .connect
  | .find name _ => .find name
  | .exec container command _ => .exec container command
  | .disconnect => .disconnect

namespace Host

variable {e : Executor} {h h' : Host} {event : Event} {c : Command} {k : Nat}

/-- The command gives what the turn says, by the same calls. -/
structure Matches (f : Finished) (t : Executor.Turn) : Prop where
  arguments : f.arguments = t.arguments
  calls : f.calls = t.exchanges.map Exchange.call
  result : f.result = t.result

/-- The events of a command whose process goes on so. -/
def course (h : Host) (arguments : List Text) (r : Run) : List Event :=
  .ask arguments :: match r.fate with
    | .ends => [.start, .exit h.processes.length r.exit, .close r.out r.err]
    | .hangs => [.start, .giveUp .timeout]
    | .interrupted => [.start, .giveUp .stop]
    | .refused reason => [.refuse reason]
    | .raises trouble message => [.raise trouble message]

section Courses

variable {arguments : List Text} {r : Run}

/-- The command of these events comes to an end that matches the turn. -/
def Completes (e : Executor) (h : Host) (events : List Event) (t : Executor.Turn) : Prop :=
  ∃ h' f, h.run? e events = some h' ∧ h'.current = none ∧ h'.finished = h.finished ++ [f] ∧ Matches f t

/-- A command was asked for. -/
def asked (h : Host) (arguments : List Text) : Host := { h with current := some { arguments } }

/-- A command whose process was started. -/
def starter (e : Executor) (h : Host) (arguments : List Text) : Command :=
  { calling e { arguments } with process := some h.processes.length }

/-- The process of the command was started. -/
def started (e : Executor) (h : Host) (arguments : List Text) : Host :=
  { h with processes := h.processes ++ [.alive], current := some (starter e h arguments) }

theorem handle?_ask (hidle : h.current = none) :
    h.handle? e (.ask arguments) = some (h.asked arguments) := by
  show h.ask? arguments = _
  unfold ask?
  rw [hidle]
  rfl

theorem calling?_asked : (h.asked arguments).calling? e = some (calling e { arguments }) := by
  unfold calling? asked
  simp [calling]

theorem handle?_start : (h.asked arguments).handle? e .start = some (h.started e arguments) := by
  show (h.asked arguments).start? e = _
  unfold start?
  rw [calling?_asked]
  rfl

theorem handle?_close {code : Int} (out err : Octets) (hcurrent : h.current = some c)
    (hended : h.processOf c = some (.ended code)) :
    h.handle? e (.close out err) = some
      (h.finish c .read (.ok (code, Utf8.decodeLossy (Executor.output { exit := code, out, err })))) := by
  show h.close? out err = _
  unfold close?
  simp only [hcurrent, Option.bind_eq_bind, Option.bind_some, hended]
  rfl

theorem handle?_kill (reason : Reason) (hcurrent : h.current = some c) (hprocess : c.process = some k)
    (halive : h.processes[k]? = some .alive) :
    h.handle? e (.giveUp reason) = some ((h.killing k).finish (c.call .kill)
      (.givenUp reason (some .alive)) (.error (reason.failure e (e.program :: c.arguments)))) := by
  have hcancel : h.cancelReader c = (h.killing k, c.call .kill) := by
    unfold cancelReader
    simp only [hprocess, halive, if_true]
    rfl
  have hof : h.processOf c = some .alive := (congrArg (Option.bind · _) hprocess).trans halive
  show h.giveUp? e reason = _
  unfold giveUp?
  rw [hcurrent, Option.map_some, hcancel, hof]

theorem getElem?_started : (h.started e arguments).processes[h.processes.length]? = some .alive :=
  List.getElem?_concat_length

theorem completes_of_finish {events : List Event} {t : Executor.Turn} {g : Host} {ending : Ending}
    {result : Except Failure (Int × Text)} (hrun : h.run? e events = some (g.finish c ending result))
    (hfinished : g.finished = h.finished) (hmatches : Matches { toCommand := c, ending, result } t) :
    Completes e h events t :=
  ⟨_, _, hrun, rfl, congrArg (· ++ _) hfinished, hmatches⟩

theorem completes_of_fail (hidle : h.current = none) {failure : Failure}
    (hevent : ∀ g : Host, g.handle? e event = g.fail? e failure) (s : Site) :
    Completes e h [.ask arguments, event]
      ⟨arguments, [.spawn (e.program :: arguments) r], .error failure, s⟩ := by
  have hfail : (h.asked arguments).handle? e event
      = some ((h.asked arguments).finish (calling e { arguments }) .read (.error failure)) := by
    rw [hevent, fail?, calling?_asked]
    rfl
  have hrun := (run?_cons _ (handle?_ask hidle)).trans ((run?_cons _ hfail).trans run?_nil)
  exact completes_of_finish hrun rfl ⟨rfl, rfl, rfl⟩

theorem completes_of_giveUp (hidle : h.current = none) (reason : Reason) (s : Site) :
    Completes e h [.ask arguments, .start, .giveUp reason]
      ⟨arguments, [.spawn (e.program :: arguments) r, .kill],
        .error (reason.failure e (e.program :: arguments)), s⟩ := by
  have hkill := handle?_kill (e := e) (h := h.started e arguments) reason rfl rfl getElem?_started
  have hrun := (run?_cons _ (handle?_ask hidle)).trans
    ((run?_cons _ handle?_start).trans ((run?_cons _ hkill).trans run?_nil))
  exact completes_of_finish hrun rfl ⟨rfl, rfl, rfl⟩

theorem completes_of_close (hidle : h.current = none) (s : Site) :
    Completes e h [.ask arguments, .start, .exit h.processes.length r.exit, .close r.out r.err]
      ⟨arguments, [.spawn (e.program :: arguments) r],
        .ok (r.exit, Utf8.decodeLossy (Executor.output r)), s⟩ := by
  have hexit : (h.started e arguments).handle? e (.exit h.processes.length r.exit)
      = some { h.started e arguments with
          processes := (h.started e arguments).processes.set h.processes.length (.ended r.exit) } :=
    if_pos getElem?_started
  have hended : ((h.started e arguments).processes.set h.processes.length
      (.ended r.exit))[h.processes.length]? = some (.ended r.exit) :=
    List.getElem?_set_self (List.getElem?_eq_some_iff.mp (getElem?_started (e := e))).1
  have hclose := handle?_close (e := e) (c := starter e h arguments)
    (h := { h.started e arguments with
      processes := (h.started e arguments).processes.set h.processes.length (.ended r.exit) })
    r.out r.err rfl hended
  have hrun := (run?_cons _ (handle?_ask hidle)).trans ((run?_cons _ handle?_start).trans
    ((run?_cons _ hexit).trans ((run?_cons _ hclose).trans run?_nil)))
  exact completes_of_finish hrun rfl ⟨rfl, rfl, rfl⟩

/-- **A local run is a course of events.** -/
theorem completes_course (hidle : h.current = none) (arguments : List Text) (r : Run) (s : Site) :
    Completes e h (h.course arguments r)
      ⟨arguments, Executor.localExchanges (e.program :: arguments) r,
        e.localOutcome (e.program :: arguments) r, s⟩ := by
  unfold course Executor.localExchanges Executor.localOutcome
  cases hfate : r.fate with
  | ends => exact completes_of_close hidle s
  | hangs => exact completes_of_giveUp hidle .timeout s
  | interrupted => exact completes_of_giveUp hidle .stop s
  | refused reason => exact completes_of_fail hidle (fun _ => rfl) s
  | raises trouble message => exact completes_of_fail hidle (fun _ => rfl) s

/-- A command of an executor on this host is a course of events. -/
theorem exists_completes_turn (hlocal : e.container = none) (hidle : h.current = none) (s : Site)
    (arguments : List Text) : ∃ events, Completes e h events (e.turn s arguments) := by
  obtain ⟨r, s', hleads⟩ := e.runLocally_leads (e.program :: arguments) s
  rw [← Executor.run_locally arguments hlocal] at hleads
  rw [Executor.turn_eq hleads]
  exact ⟨_, completes_course hidle arguments r s'⟩

/-- So are its commands in a row. -/
theorem exists_turns (hlocal : e.container = none) (commands : List (List Text)) (s : Site)
    (hh : Reached e h) (hidle : h.current = none) : ∃ h' new, Reached e h' ∧ h'.current = none ∧
      h'.finished = h.finished ++ new ∧ List.Forall₂ Matches new (e.turns s commands) := by
  induction commands generalizing h s with
  | nil => exact ⟨h, [], hh, hidle, (List.append_nil _).symm, .nil⟩
  | cons arguments rest ih =>
    obtain ⟨events, h₁, f, hrun, hidle₁, hfinished₁, hmatches⟩ :=
      exists_completes_turn hlocal hidle s arguments
    obtain ⟨h₂, new, hh₂, hidle₂, hfinished₂, hrest⟩ :=
      ih (e.turn s arguments).after (hh.run? hrun) hidle₁
    refine ⟨h₂, f :: new, hh₂, hidle₂, ?_, .cons hmatches hrest⟩
    rw [hfinished₂, hfinished₁, List.append_assoc, List.singleton_append]

end Courses

/-- **No process is left behind.** After any events every command that is over is clean, each process is that
of one command, and none is alive while no command is under way. And any commands of an executor on this
host are courses of such events, whatever they meet. -/
theorem none_left_behind (e : Executor) :
    (∀ h, Reached e h → (∀ f ∈ h.finished, Clean e h f) ∧ h.numbers = List.range h.processes.length ∧
      (h.current = none → .alive ∉ h.processes)) ∧
    (e.container = none → ∀ (s : Site) (commands : List (List Text)), ∃ h, Reached e h ∧
      h.current = none ∧ List.Forall₂ Matches h.finished (e.turns s commands)) := by
  refine ⟨fun h hh => ?_, fun hlocal s commands => ?_⟩
  · have hs := sound_of_reached hh
    exact ⟨hs.finished, hs.numbered, not_alive_of_idle hs⟩
  · obtain ⟨h, new, hh, hidle, hfinished, hmatches⟩ := exists_turns hlocal commands s (reached_new e) rfl
    have hfinished : h.finished = new := hfinished
    exact ⟨h, hh, hidle, hfinished ▸ hmatches⟩

/-- An executor on this host. -/
def patient : Executor := { timeout := .ofNat 5 }

/-- Three commands that are given up: the process of the first has ended before, that of the second is alive
when the timeout strikes, and that of the third when the loop is stopped. -/
def crossed : List Event :=
  [.ask ["-s", "qdisc"], .start, .exit 0 0, .giveUp .timeout,
   .ask ["-s", "qdisc"], .start, .giveUp .timeout,
   .ask ["-s", "qdisc"], .start, .giveUp .stop]

/-- The first process is not killed, and the other two are killed once. -/
theorem none_left_behind_crossed : ∃ h, Reached patient h ∧
    h.processes = [.ended 0, .killed, .killed] ∧ h.kills = [1, 2] ∧
      h.finished.map (·.ending) = [.givenUp .timeout (some (.ended 0)), .givenUp .timeout (some .alive),
        .givenUp .stop (some .alive)] ∧
      (∀ f ∈ h.finished, Clean patient h f) ∧ .alive ∉ h.processes ∧
      patient.container = none ∧ ∃ h', Reached patient h' ∧ h'.current = none ∧
        List.Forall₂ Matches h'.finished (patient.turns {} [["-s", "qdisc"]]) := by
  have hcourse : (run? patient {} crossed).map (fun h => (h.processes, h.kills, h.current,
      h.finished.map (·.ending))) = some ([.ended 0, .killed, .killed], [1, 2], none,
        [.givenUp .timeout (some (.ended 0)), .givenUp .timeout (some .alive),
          .givenUp .stop (some .alive)]) := by
    decide +kernel
  obtain ⟨h, hrun, hfields⟩ := Option.map_eq_some_iff.mp hcourse
  obtain ⟨hprocesses, hfields⟩ := Prod.mk.inj hfields
  obtain ⟨hkills, hfields⟩ := Prod.mk.inj hfields
  obtain ⟨hidle, hendings⟩ := Prod.mk.inj hfields
  obtain ⟨hall, hturns⟩ := none_left_behind patient
  obtain ⟨hclean, -, hnone⟩ := hall h ⟨crossed, hrun⟩
  exact ⟨h, ⟨crossed, hrun⟩, hprocesses, hkills, hendings, hclean, hnone hidle, rfl,
    hturns rfl {} [["-s", "qdisc"]]⟩

end Host

end CakeMonitor
