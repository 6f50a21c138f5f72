import CakeMonitor.Proofs.Command.Processes
import Mathlib.Data.List.Basic
import Mathlib.Data.List.Nodup

/-!
# Every local process comes to its end

The end of a process, the timeout and a stop may come in any order. Whatever the order, a command on this host
starts at most one process, and when the command is over, so is the process: it has ended by itself, or it was
killed once.

* `Host.Step`: all that an event can do; `Host.step_of_handle?` is the one look at the events.
* `Host.Keeps`: what is over stays as it is.
* `Host.Clean`: what became of a command that is over.
* `Host.Sound`: every command so far is clean, and every process is one of a command.
* `Host.sound_step`, `Host.sound_of_reached`: every event keeps it so, and all events do.
-/

namespace CakeMonitor

namespace Host

variable {e : Executor} {h h' : Host} {event : Event} {c : Command} {f : Finished} {k : Nat}

/-! ## What an event does -/

/-- The command with the call that starts its process. -/
def calling (e : Executor) (c : Command) : Command := c.call (.spawn (e.program :: c.arguments))

/-- The host when a process was killed. -/
def killing (h : Host) (k : Nat) : Host :=
  { h with processes := h.processes.set k .killed, kills := h.kills ++ [k] }

/-- **All that an event can do.** -/
inductive Step (e : Executor) (h : Host) : Event → Host → Prop
  | ask {arguments : List Text} (idle : h.current = none) :
      Step e h (.ask arguments) { h with current := some { arguments } }
  | start {c : Command} (current : h.current = some c) (unstarted : c.process = none) :
      Step e h .start
        { h with processes := h.processes ++ [.alive]
                 current := some { calling e c with process := some h.processes.length } }
  | refuse {c : Command} {reason : Text} (current : h.current = some c) (unstarted : c.process = none) :
      Step e h (.refuse reason)
        (h.finish (calling e c) .read (.error (.command (.notStarted e.program reason))))
  | raise {c : Command} {trouble : Trouble} {message : Text} (current : h.current = some c)
      (unstarted : c.process = none) :
      Step e h (.raise trouble message)
        (h.finish (calling e c) .read (.error (e.startFailure trouble message)))
  | exit {k : Nat} {code : Int} (alive : h.processes[k]? = some .alive) :
      Step e h (.exit k code) { h with processes := h.processes.set k (.ended code) }
  | close {c : Command} {k : Nat} {code : Int} {out err : Octets} (current : h.current = some c)
      (process : c.process = some k) (ended : h.processes[k]? = some (.ended code)) :
      Step e h (.close out err)
        (h.finish c .read (.ok (code, Utf8.decodeLossy (Executor.output { exit := code, out, err }))))
  | kill {c : Command} {k : Nat} {reason : Reason} (current : h.current = some c)
      (process : c.process = some k) (alive : h.processes[k]? = some .alive) :
      Step e h (.giveUp reason)
        ((h.killing k).finish (c.call .kill) (.givenUp reason (some .alive))
          (.error (reason.failure e (e.program :: c.arguments))))
  | leave {c : Command} {reason : Reason} (current : h.current = some c)
      (gone : h.processOf c ≠ some .alive) :
      Step e h (.giveUp reason)
        (h.finish c (.givenUp reason (h.processOf c))
          (.error (reason.failure e (e.program :: c.arguments))))

theorem calling?_eq_some (hc : h.calling? e = some c) : ∃ old, h.current = some old ∧
    old.process = none ∧ c = calling e old := by
  unfold calling? at hc
  obtain ⟨old, hold, rfl⟩ := Option.map_eq_some_iff.mp hc
  obtain ⟨hcurrent, hwaits⟩ := Option.filter_eq_some_iff.mp hold
  exact ⟨old, hcurrent, Option.isNone_iff_eq_none.mp hwaits, rfl⟩

theorem fail?_eq_some {failure : Failure} (hh : h.fail? e failure = some h') :
    ∃ c, h.current = some c ∧ c.process = none ∧
      h' = h.finish (calling e c) .read (.error failure) := by
  obtain ⟨called, hcalled, rfl⟩ := Option.map_eq_some_iff.mp hh
  obtain ⟨c, hcurrent, hunstarted, rfl⟩ := calling?_eq_some hcalled
  exact ⟨c, hcurrent, hunstarted, rfl⟩

theorem processOf_eq_some {p : Process} (hp : h.processOf c = some p) :
    ∃ k, c.process = some k ∧ h.processes[k]? = some p := Option.bind_eq_some_iff.mp hp

theorem step_of_giveUp? {reason : Reason} (hh : h.giveUp? e reason = some h') :
    Step e h (.giveUp reason) h' := by
  obtain ⟨c, hcurrent, rfl⟩ := Option.map_eq_some_iff.mp hh
  unfold cancelReader
  cases hprocess : c.process with
  | none =>
    refine .leave hcurrent ?_
    unfold processOf
    rw [hprocess]
    nofun
  | some k =>
    have hof : h.processOf c = h.processes[k]? := by
      unfold processOf
      rw [hprocess]
      rfl
    by_cases halive : h.processes[k]? = some .alive
    · simp only [halive, if_true, hof]
      exact .kill hcurrent hprocess halive
    · simp only [halive, if_false]
      exact .leave hcurrent (hof ▸ halive)

theorem step_of_handle? (hh : h.handle? e event = some h') : Step e h event h' := by
  cases event with
  | ask arguments =>
    unfold handle? ask? at hh
    cases hcurrent : h.current with
    | none =>
      rw [hcurrent] at hh
      obtain rfl := Option.some.inj hh
      exact .ask hcurrent
    | some c =>
      rw [hcurrent] at hh
      cases hh
  | start =>
    obtain ⟨called, hcalled, rfl⟩ := Option.map_eq_some_iff.mp hh
    obtain ⟨c, hcurrent, hunstarted, rfl⟩ := calling?_eq_some hcalled
    exact .start hcurrent hunstarted
  | refuse reason =>
    obtain ⟨c, hcurrent, hunstarted, rfl⟩ := fail?_eq_some hh
    exact .refuse hcurrent hunstarted
  | raise trouble message =>
    obtain ⟨c, hcurrent, hunstarted, rfl⟩ := fail?_eq_some hh
    exact .raise hcurrent hunstarted
  | exit k code =>
    change h.exit? k code = some h' at hh
    unfold exit? at hh
    split_ifs at hh with halive
    obtain rfl := Option.some.inj hh
    exact .exit halive
  | close out err =>
    unfold handle? close? at hh
    obtain ⟨c, hcurrent, hh⟩ := Option.bind_eq_some_iff.mp hh
    split at hh
    · next code hended =>
      obtain rfl := Option.some.inj hh
      obtain ⟨k, hprocess, hended⟩ := processOf_eq_some hended
      exact .close hcurrent hprocess hended
    · cases hh
  | giveUp reason => exact step_of_giveUp? hh

/-! ## What is over -/

/-- A process that is over stays as it is, and is not killed again. -/
structure Keeps (h h' : Host) : Prop where
  process : ∀ (k : Nat) (p : Process), h.processes[k]? = some p → p ≠ .alive → h'.processes[k]? = some p
  kills : ∀ (k : Nat) (p : Process), h.processes[k]? = some p → p ≠ .alive →
    h'.kills.count k = h.kills.count k

theorem keeps_of_same (hprocesses : h'.processes = h.processes) (hkills : h'.kills = h.kills) :
    h.Keeps h' where
  process k p hp _ := by rw [hprocesses, hp]
  kills k p _ _ := by rw [hkills]

theorem ne_of_over {j : Nat} {p : Process} (halive : h.processes[k]? = some .alive)
    (hp : h.processes[j]? = some p) (hover : p ≠ .alive) : k ≠ j := by
  rintro rfl
  rw [halive] at hp
  exact hover (Option.some.inj hp).symm

theorem keeps_step (hs : Step e h event h') : h.Keeps h' := by
  cases hs with
  | ask _ | refuse _ _ | raise _ _ | close _ _ _ | leave _ _ => exact keeps_of_same rfl rfl
  | start _ _ =>
    refine ⟨fun j p hp _ => ?_, fun _ _ _ _ => rfl⟩
    exact (List.getElem?_append_left (List.getElem?_eq_some_iff.mp hp).1).trans hp
  | exit halive =>
    refine ⟨fun j p hp hover => ?_, fun _ _ _ _ => rfl⟩
    exact (List.getElem?_set_ne (ne_of_over halive hp hover)).trans hp
  | @kill c k _ _ _ halive =>
    refine ⟨fun j p hp hover => ?_, fun j p hp hover => ?_⟩
    · exact (List.getElem?_set_ne (ne_of_over halive hp hover)).trans hp
    · show (h.kills ++ [k]).count j = h.kills.count j
      rw [List.count_append, List.count_singleton, if_neg, Nat.add_zero]
      exact fun hkj => ne_of_over halive hp hover (beq_iff_eq.mp hkj)

/-- **What became of a command that is over**: it has started at most one process; this has ended by itself and
was never killed, or was killed once, and that exactly when it was alive while the command was given up. A
timeout is a failure of the command, and no stop. -/
structure Clean (e : Executor) (h : Host) (f : Finished) : Prop where
  calls : f.calls = [] ∨ f.calls = [.spawn (e.program :: f.arguments)] ∨
    f.calls = [.spawn (e.program :: f.arguments), .kill]
  gone : ∀ k, f.process = some k → (∃ code, h.processes[k]? = some (.ended code)) ∧ h.kills.count k = 0 ∨
    h.processes[k]? = some .killed ∧ h.kills.count k = 1
  killed : ∀ k, f.process = some k →
    (h.kills.count k = 1 ↔ ∃ reason, f.ending = .givenUp reason (some .alive))
  callsKill : .kill ∈ f.calls ↔ ∃ reason, f.ending = .givenUp reason (some .alive)
  read : ∀ code output, f.result = .ok (code, output) →
    ∃ k, f.process = some k ∧ h.processes[k]? = some (.ended code)
  timedOut : ∀ p, f.ending = .givenUp .timeout p →
    f.result = .error (.command (.timedOut (e.program :: f.arguments) e.timeout))
  stopped : f.result = .error .stopped ↔ ∃ p, f.ending = .givenUp .stop p

theorem Clean.of_keeps (hf : Clean e h f) (hkeeps : h.Keeps h') : Clean e h' f := by
  have hkept (k : Nat) (hk : f.process = some k) : ∃ p, h.processes[k]? = some p ∧ p ≠ .alive := by
    obtain ⟨⟨code, hended⟩, -⟩ | ⟨hkilled, -⟩ := hf.gone k hk
    · exact ⟨.ended code, hended, nofun⟩
    · exact ⟨.killed, hkilled, nofun⟩
  have hcount (k : Nat) (hk : f.process = some k) : h'.kills.count k = h.kills.count k := by
    obtain ⟨p, hp, hover⟩ := hkept k hk
    exact hkeeps.kills k p hp hover
  refine ⟨hf.calls, fun k hk => ?_, fun k hk => ?_, hf.callsKill, fun code output hresult => ?_, hf.timedOut,
    hf.stopped⟩
  · rw [hcount k hk]
    obtain ⟨⟨code, hended⟩, hnever⟩ | ⟨hkilled, honce⟩ := hf.gone k hk
    · exact .inl ⟨⟨code, hkeeps.process k _ hended nofun⟩, hnever⟩
    · exact .inr ⟨hkeeps.process k _ hkilled nofun, honce⟩
  · rw [hcount k hk]
    exact hf.killed k hk
  · obtain ⟨k, hk, hended⟩ := hf.read code output hresult
    exact ⟨k, hk, hkeeps.process k _ hended nofun⟩

/-! ## The invariant -/

/-- A command under way: it has not called yet, or has a process that was not killed. -/
inductive Open (e : Executor) (h : Host) (c : Command) : Prop
  | waiting (unstarted : c.process = none) (calls : c.calls = [])
  | running {k : Nat} {p : Process} (process : c.process = some k)
      (calls : c.calls = [.spawn (e.program :: c.arguments)]) (is : h.processes[k]? = some p)
      (unkilled : p ≠ .killed)

/-- The numbers of the processes in the order of their commands. -/
def numbers (h : Host) : List Nat :=
  h.finished.filterMap (·.process) ++ (h.current.bind (·.process)).toList

/-- **The processes are those of the commands**, and the commands that are over are clean. -/
structure Sound (e : Executor) (h : Host) : Prop where
  numbered : h.numbers = List.range h.processes.length
  once : h.kills.Nodup
  killed : ∀ k ∈ h.kills, h.processes[k]? = some .killed
  current : ∀ c, h.current = some c → Open e h c
  finished : ∀ f ∈ h.finished, Clean e h f

theorem count_kills_eq_zero (hs : Sound e h) {p : Process} (hp : h.processes[k]? = some p)
    (hunkilled : p ≠ .killed) : h.kills.count k = 0 := by
  refine List.count_eq_zero.mpr fun hk => hunkilled ?_
  rw [hs.killed k hk] at hp
  exact (Option.some.inj hp).symm

theorem calls_of_unstarted (hopen : Open e h c) (hunstarted : c.process = none) : c.calls = [] := by
  cases hopen with
  | waiting _ calls => exact calls
  | running process _ _ _ =>
    rw [hunstarted] at process
    cases process

theorem unkilled_of_process (hopen : Open e h c) (hprocess : c.process = some k) :
    c.calls = [.spawn (e.program :: c.arguments)] ∧
      ∃ p, h.processes[k]? = some p ∧ p ≠ .killed := by
  cases hopen with
  | waiting unstarted _ =>
    rw [unstarted] at hprocess
    cases hprocess
  | running process calls is unkilled =>
    obtain rfl := Option.some.inj (hprocess.symm.trans process)
    exact ⟨calls, _, is, unkilled⟩

/-! ### Commands that come to their end -/

/-- What a command that is given up fails with tells timeouts and stops apart. -/
theorem failure_eq_stopped_iff {reason : Reason} {command : List Text} :
    reason.failure e command = .stopped ↔ reason = .stop := by
  cases reason with
  | timeout => exact iff_of_false nofun nofun
  | stop => exact iff_of_true rfl rfl

theorem startFailure_ne_stopped (e : Executor) (trouble : Trouble) (message : Text) :
    e.startFailure trouble message ≠ .stopped := by
  unfold Executor.startFailure
  split
  · nofun
  · nofun

/-- A command whose process is not started is clean. -/
theorem clean_of_unstarted {failure : Failure} (hopen : Open e h c) (hunstarted : c.process = none)
    (hfailure : failure ≠ .stopped) :
    Clean e h { toCommand := calling e c, ending := .read, result := .error failure } := by
  have hcalls : (calling e c).calls = [.spawn (e.program :: c.arguments)] :=
    congrArg (· ++ _) (calls_of_unstarted hopen hunstarted)
  have hnone (k : Nat) : (calling e c).process ≠ some k := fun hk => by
    rw [show c.process = some k from hk] at hunstarted
    cases hunstarted
  refine ⟨.inr (.inl hcalls), fun k hk => absurd hk (hnone k), fun k hk => absurd hk (hnone k), ?_, nofun, nofun,
    iff_of_false (fun hstopped => hfailure (Except.error.inj hstopped)) nofun⟩
  rw [hcalls]
  exact iff_of_false (by simp) nofun

/-- A command whose output was read is clean. -/
theorem clean_of_read {code : Int} {output : Text} (hs : Sound e h) (hcurrent : h.current = some c)
    (hprocess : c.process = some k) (hended : h.processes[k]? = some (.ended code)) :
    Clean e h { toCommand := c, ending := .read, result := .ok (code, output) } := by
  obtain ⟨hcalls, -⟩ := unkilled_of_process (hs.current c hcurrent) hprocess
  have hzero := count_kills_eq_zero hs hended nofun
  have hthis {j : Nat} (hj : c.process = some j) : j = k := Option.some.inj (hj.symm.trans hprocess)
  refine ⟨.inr (.inl hcalls), fun j hj => ?_, fun j hj => ?_, ?_, fun code' output' hresult => ?_, nofun,
    iff_of_false nofun nofun⟩
  · rw [hthis hj]
    exact .inl ⟨⟨code, hended⟩, hzero⟩
  · rw [hthis hj, hzero]
    exact iff_of_false nofun nofun
  · rw [hcalls]
    exact iff_of_false (by simp) nofun
  · obtain ⟨rfl, -⟩ := Prod.mk.inj (Except.ok.inj hresult)
    exact ⟨k, hprocess, hended⟩

section GivenUp

variable {reason : Reason}

theorem timedOut_of_givenUp {process : Option Process} (p : Option Process)
    (hp : Ending.givenUp reason process = .givenUp .timeout p) :
    (.error (reason.failure e (e.program :: c.arguments)) : Except Failure (Int × Text))
      = .error (.command (.timedOut (e.program :: c.arguments) e.timeout)) := by
  rw [(Ending.givenUp.inj hp).1]
  rfl

theorem stopped_iff_of_givenUp {process : Option Process} :
    (.error (reason.failure e (e.program :: c.arguments)) : Except Failure (Int × Text)) = .error .stopped ↔
      ∃ p, Ending.givenUp reason process = .givenUp .stop p := by
  constructor
  · intro hstopped
    rw [failure_eq_stopped_iff.mp (Except.error.inj hstopped)]
    exact ⟨process, rfl⟩
  · rintro ⟨p, hp⟩
    rw [(Ending.givenUp.inj hp).1]
    rfl

/-- A command whose process was killed is clean. -/
theorem clean_of_killed (hs : Sound e h) (hcurrent : h.current = some c) (hprocess : c.process = some k)
    (halive : h.processes[k]? = some .alive) :
    Clean e (h.killing k)
      { toCommand := c.call .kill, ending := .givenUp reason (some .alive)
        result := .error (reason.failure e (e.program :: c.arguments)) } := by
  have hkilled : (h.killing k).processes[k]? = some .killed :=
    List.getElem?_set_self (List.getElem?_eq_some_iff.mp halive).1
  have hcount : (h.killing k).kills.count k = 1 := by
    show (h.kills ++ [k]).count k = 1
    rw [List.count_append, count_kills_eq_zero hs halive nofun, List.count_singleton_self]
  have hcalls : (c.call .kill).calls = [.spawn (e.program :: c.arguments), .kill] :=
    congrArg (· ++ _) (unkilled_of_process (hs.current c hcurrent) hprocess).1
  have hthis {j : Nat} (hj : (c.call .kill).process = some j) : j = k :=
    Option.some.inj (Eq.trans (Eq.symm hj) hprocess)
  refine ⟨.inr (.inr hcalls), fun j hj => ?_, fun j hj => ?_, ?_, nofun, timedOut_of_givenUp,
    stopped_iff_of_givenUp⟩
  · rw [hthis hj]
    exact .inr ⟨hkilled, hcount⟩
  · rw [hthis hj]
    exact iff_of_true hcount ⟨reason, rfl⟩
  · rw [hcalls]
    exact iff_of_true (by simp) ⟨reason, rfl⟩

/-- A command that is given up without a process that is alive is clean. -/
theorem clean_of_left (hs : Sound e h) (hcurrent : h.current = some c)
    (hover : h.processOf c ≠ some .alive) :
    Clean e h
      { toCommand := c, ending := .givenUp reason (h.processOf c)
        result := .error (reason.failure e (e.program :: c.arguments)) } := by
  have hnever : ¬ ∃ reason', Ending.givenUp reason (h.processOf c) = .givenUp reason' (some .alive) := by
    rintro ⟨reason', hreason⟩
    exact hover (Ending.givenUp.inj hreason).2
  cases hprocess : c.process with
  | none =>
    have hcalls := calls_of_unstarted (hs.current c hcurrent) hprocess
    have hnone (k : Nat) : c.process ≠ some k := by
      rw [hprocess]
      nofun
    refine ⟨.inl hcalls, fun k hk => absurd hk (hnone k), fun k hk => absurd hk (hnone k), ?_, nofun,
      timedOut_of_givenUp, stopped_iff_of_givenUp⟩
    rw [hcalls]
    exact iff_of_false nofun hnever
  | some k =>
    obtain ⟨hcalls, p, hp, hunkilled⟩ := unkilled_of_process (hs.current c hcurrent) hprocess
    have hof : h.processOf c = some p := (congrArg (Option.bind · _) hprocess).trans hp
    have hzero := count_kills_eq_zero hs hp hunkilled
    have hthis {j : Nat} (hj : c.process = some j) : j = k := Option.some.inj (hj.symm.trans hprocess)
    refine ⟨.inr (.inl hcalls), fun j hj => ?_, fun j hj => ?_, ?_, nofun, timedOut_of_givenUp,
      stopped_iff_of_givenUp⟩
    · rw [hthis hj]
      cases p with
      | alive => exact absurd hof hover
      | ended code => exact .inl ⟨⟨code, hp⟩, hzero⟩
      | killed => exact absurd rfl hunkilled
    · rw [hthis hj, hzero]
      exact iff_of_false nofun hnever
    · rw [hcalls]
      exact iff_of_false (by simp) hnever

end GivenUp

/-! ### Events -/

/-- A command comes to its end, on a host that has kept what is over. -/
theorem sound_finish {g : Host} {c' : Command} {ending : Ending} {result : Except Failure (Int × Text)}
    (hs : Sound e h) (hcurrent : h.current = some c) (hkeeps : h.Keeps g)
    (hlength : g.processes.length = h.processes.length) (hfinished : g.finished = h.finished)
    (honce : g.kills.Nodup) (hkilled : ∀ k ∈ g.kills, g.processes[k]? = some .killed)
    (hprocess : c'.process = c.process) (hclean : Clean e g { toCommand := c', ending, result }) :
    Sound e (g.finish c' ending result) := by
  have hsame : g.Keeps (g.finish c' ending result) := keeps_of_same rfl rfl
  refine ⟨?_, honce, hkilled, nofun, fun f hf => ?_⟩
  · have hnumbered := hs.numbered
    unfold numbers at hnumbered ⊢
    rw [hcurrent] at hnumbered
    show (g.finished ++ [_]).filterMap _ ++ [] = List.range g.processes.length
    rw [hlength, ← hnumbered, hfinished, List.filterMap_append, List.append_nil]
    refine congrArg (_ ++ ·) ?_
    show [_].filterMap _ = c.process.toList
    rw [← hprocess]
    cases hnone : c'.process <;> simp [hnone]
  · have hf : f ∈ g.finished ++ [_] := hf
    rw [hfinished, List.mem_append, List.mem_singleton] at hf
    obtain hf | rfl := hf
    · exact ((hs.finished f hf).of_keeps hkeeps).of_keeps hsame
    · exact hclean.of_keeps hsame

/-- So it does when the processes are as before. -/
theorem sound_finish_same {c' : Command} {ending : Ending} {result : Except Failure (Int × Text)}
    (hs : Sound e h) (hcurrent : h.current = some c) (hprocess : c'.process = c.process)
    (hclean : Clean e h { toCommand := c', ending, result }) : Sound e (h.finish c' ending result) :=
  sound_finish hs hcurrent (keeps_of_same rfl rfl) rfl rfl hs.once hs.killed hprocess hclean

theorem sound_ask (hs : Sound e h) (hidle : h.current = none) (arguments : List Text) :
    Sound e { h with current := some { arguments } } := by
  have hkeeps : h.Keeps { h with current := some { arguments } } := keeps_of_same rfl rfl
  have hnumbered := hs.numbered
  unfold numbers at hnumbered
  rw [hidle] at hnumbered
  refine ⟨hnumbered, hs.once, hs.killed, fun c hc => ?_, fun f hf => (hs.finished f hf).of_keeps hkeeps⟩
  rw [← Option.some.inj hc]
  exact .waiting rfl rfl

theorem sound_start (hs : Sound e h) (hcurrent : h.current = some c) (hunstarted : c.process = none) :
    Sound e { h with processes := h.processes ++ [.alive]
                     current := some { calling e c with process := some h.processes.length } } := by
  have hkeeps := keeps_step (e := e) (.start hcurrent hunstarted)
  have hnumbered := hs.numbered
  unfold numbers at hnumbered
  rw [hcurrent, Option.bind_some, hunstarted, Option.toList_none, List.append_nil] at hnumbered
  refine ⟨?_, hs.once, fun k hk => hkeeps.process k _ (hs.killed k hk) nofun, fun c' hc' => ?_,
    fun f hf => (hs.finished f hf).of_keeps hkeeps⟩
  · show h.finished.filterMap _ ++ [h.processes.length] = List.range (h.processes ++ [_]).length
    rw [hnumbered, List.length_append, List.length_singleton, List.range_succ]
  · have hcalls := calls_of_unstarted (hs.current c hcurrent) hunstarted
    rw [← Option.some.inj hc']
    exact .running rfl (congrArg (· ++ _) hcalls) List.getElem?_concat_length nofun

theorem sound_exit (hs : Sound e h) (halive : h.processes[k]? = some .alive) (code : Int) :
    Sound e { h with processes := h.processes.set k (.ended code) } := by
  have hstep : Step e h (.exit k code) _ := .exit halive
  have hkeeps := keeps_step hstep
  refine ⟨hs.numbered.trans (congrArg List.range List.length_set.symm), hs.once,
    fun j hj => hkeeps.process j _ (hs.killed j hj) nofun, fun c hc => ?_,
    fun f hf => (hs.finished f hf).of_keeps hkeeps⟩
  cases hs.current c hc with
  | waiting unstarted calls => exact .waiting unstarted calls
  | @running j p process calls is unkilled =>
    by_cases hkj : k = j
    · subst hkj
      have hlt := (List.getElem?_eq_some_iff.mp halive).1
      exact .running process calls (List.getElem?_set_self hlt) nofun
    · exact .running process calls ((List.getElem?_set_ne hkj).trans is) unkilled

theorem sound_kill {reason : Reason} (hs : Sound e h) (hcurrent : h.current = some c)
    (hprocess : c.process = some k) (halive : h.processes[k]? = some .alive) :
    Sound e ((h.killing k).finish (c.call .kill) (.givenUp reason (some .alive))
      (.error (reason.failure e (e.program :: c.arguments)))) := by
  have hkeeps : h.Keeps (h.killing k) := by
    have hstep : Step e h (.giveUp reason) _ := .kill hcurrent hprocess halive
    obtain ⟨hkept, hkills⟩ := keeps_step hstep
    exact ⟨hkept, hkills⟩
  have hnew : k ∉ h.kills := List.count_eq_zero.mp (count_kills_eq_zero hs halive nofun)
  refine sound_finish hs hcurrent hkeeps List.length_set rfl ?_ (fun j hj => ?_) rfl
    (clean_of_killed hs hcurrent hprocess halive)
  · refine List.nodup_append.mpr ⟨hs.once, List.nodup_singleton k, ?_⟩
    rintro j hj i hi rfl
    exact hnew (List.mem_singleton.mp hi ▸ hj)
  · obtain hj | hj := List.mem_append.mp hj
    · exact hkeeps.process j _ (hs.killed j hj) nofun
    · rw [List.mem_singleton.mp hj]
      exact List.getElem?_set_self (List.getElem?_eq_some_iff.mp halive).1

/-- **Every event keeps it so.** -/
theorem sound_step (hs : Sound e h) (hstep : Step e h event h') : Sound e h' := by
  cases hstep with
  | ask idle => exact sound_ask hs idle _
  | start current unstarted => exact sound_start hs current unstarted
  | refuse current unstarted =>
    exact sound_finish_same hs current rfl (clean_of_unstarted (hs.current _ current) unstarted nofun)
  | raise current unstarted =>
    exact sound_finish_same hs current rfl
      (clean_of_unstarted (hs.current _ current) unstarted (startFailure_ne_stopped e _ _))
  | exit alive => exact sound_exit hs alive _
  | close current process ended =>
    exact sound_finish_same hs current rfl (clean_of_read hs current process ended)
  | kill current process alive => exact sound_kill hs current process alive
  | leave current gone => exact sound_finish_same hs current rfl (clean_of_left hs current gone)

/-- The host comes about by events. -/
def Reached (e : Executor) (h : Host) : Prop := ∃ events, run? e {} events = some h

theorem reached_new (e : Executor) : Reached e {} := ⟨[], rfl⟩

theorem Reached.run? {events : List Event} (hh : Reached e h) (hrun : h.run? e events = some h') :
    Reached e h' := by
  obtain ⟨earlier, hearlier⟩ := hh
  refine ⟨earlier ++ events, ?_⟩
  show List.foldlM _ _ _ = _
  rw [List.foldlM_append]
  exact Option.bind_eq_some_iff.mpr ⟨h, hearlier, hrun⟩

theorem run?_nil : h.run? e [] = some h := rfl

theorem run?_cons (events : List Event) (hnext : h.handle? e event = some h') :
    h.run? e (event :: events) = h'.run? e events := by
  show List.foldlM _ _ _ = _
  rw [List.foldlM_cons, hnext]
  rfl

theorem sound_run? {events : List Event} (hs : Sound e h) (hrun : h.run? e events = some h') :
    Sound e h' := by
  induction events generalizing h with
  | nil =>
    obtain rfl := Option.some.inj hrun
    exact hs
  | cons event events ih =>
    have hrun : List.foldlM (handle? e) h (event :: events) = some h' := hrun
    rw [List.foldlM_cons] at hrun
    obtain ⟨next, hnext, hrun⟩ := Option.bind_eq_some_iff.mp hrun
    exact ih (sound_step hs (step_of_handle? hnext)) hrun

theorem sound_of_reached (hh : Reached e h) : Sound e h := by
  obtain ⟨events, hrun⟩ := hh
  exact sound_run? ⟨rfl, List.nodup_nil, List.forall_mem_nil _, (fun _ hc => by cases hc), List.forall_mem_nil _⟩ hrun

/-- While no command is under way, no process is alive. -/
theorem not_alive_of_idle (hs : Sound e h) (hidle : h.current = none) : .alive ∉ h.processes := by
  intro halive
  obtain ⟨k, hk, hprocess⟩ := List.mem_iff_getElem.mp halive
  have hnumbered := hs.numbered
  unfold numbers at hnumbered
  rw [hidle, Option.bind_none, Option.toList_none, List.append_nil] at hnumbered
  obtain ⟨f, hf, hfk⟩ := List.mem_filterMap.mp (hnumbered ▸ List.mem_range.mpr hk)
  have hthis : h.processes[k]? = some .alive := List.getElem?_eq_some_iff.mpr ⟨hk, hprocess⟩
  obtain ⟨⟨code, hended⟩, -⟩ | ⟨hkilled, -⟩ := (hs.finished f hf).gone k hfk
  · rw [hended] at hthis
    cases hthis
  · rw [hkilled] at hthis
    cases hthis

end Host

end CakeMonitor
