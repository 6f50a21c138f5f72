import CakeMonitor.Proofs.Command.Calm
import CakeMonitor.Proofs.History.Overflow
import CakeMonitor.Service

/-!
# The poll loop over many cycles

The loop makes one cycle after another, each with a reading of the clock of its own. What the statistics
program does cannot end it: a cycle in which nothing is collected is skipped. What does end it is a poll
that was collected and cannot be recorded.

* `Service.tick`, `Service.ticks`: one cycle, and the started loop over many of them.
* `Service.start_eq_ticks`: a start makes cycles at regular times.
* `Service.Unrecordable`: the cycles that end the loop.
* `Service.tick_cases`: what one cycle does.
* `Service.survives_iff`: the loop survives exactly the runs without such a cycle.
-/

namespace CakeMonitor

open Binary64 (integerLimit)

/-! ## The end of a poll -/

namespace Poller

/-- The snapshots cannot be recorded at that time: the clock is no double, or a counter has grown by
too much. -/
def Unrecordable (p : Poller) (now : Timestamp) (stats : List Snapshot) : Prop :=
  integerLimit ≤ now.natAbs ∨ Overflows p.history.seen stats

/-- The poller after a poll that was recorded. Its snapshots go out to the subscribers. -/
def recorded (p : Poller) (now : Timestamp) (outcome : Store.Outcome (List Snapshot)) : Poller :=
  let p := { p with history := outcome.store, latest := outcome.stats
                    lastSuccess := some now, lastError := none }
  p.publish (p.response now)

variable {p : Poller} {now : Timestamp} {stats : List Snapshot}

theorem take_of_failure {e : Failure} (h : e ≠ .stopped) :
    p.take now (.error e) = ({ p with lastError := some (describe e) }, .skipped) := by
  cases e with
  | stopped => exact absurd rfl h
  | command e => rfl
  | report e => rfl
  | raised trouble message => rfl

/-- A poll that cannot be recorded breaks off, at most with some of it in the history. -/
theorem take_of_unrecordable (hinterval : Binary64.zero.lt p.interval = true)
    (h : p.Unrecordable now stats) :
    ∃ history e, p.take now (.ok stats) = ({ p with history }, .broken e) := by
  unfold take
  by_cases hclock : integerLimit ≤ now.natAbs
  · rw [Time.seconds_of_le hclock]
    exact ⟨p.history, _, rfl⟩
  · obtain ⟨clock, time, hseconds, htime⟩ := Time.seconds_of_lt (Nat.not_le.mp hclock)
    have hoverflows : ¬ (p.history.record clock p.interval stats).error = none := by
      rw [Store.error_record_iff htime hinterval, not_not]
      exact h.resolve_left hclock
    rw [hseconds]
    rcases hrecord : p.history.record clock p.interval stats with ⟨history, stats', _ | e⟩
    · rw [hrecord] at hoverflows
      exact absurd rfl hoverflows
    · exact ⟨history, e, by simp only [hrecord]⟩

theorem interval_take (p : Poller) (now : Timestamp) (stats : Except Failure (List Snapshot)) :
    (p.take now stats).1.interval = p.interval := by
  unfold take
  split
  · rfl
  · rfl
  · split
    · rfl
    · split <;> rfl

/-- Any other poll is recorded and published. -/
theorem take_of_recordable (hinterval : Binary64.zero.lt p.interval = true)
    (h : ¬ p.Unrecordable now stats) :
    ∃ clock, Time.seconds now = .ok clock ∧ (p.history.record clock p.interval stats).error = none ∧
      p.take now (.ok stats)
        = (p.recorded now (p.history.record clock p.interval stats), .completed) := by
  obtain ⟨hclock, hfits⟩ := not_or.mp h
  obtain ⟨clock, time, hseconds, htime⟩ := Time.seconds_of_lt (Nat.not_le.mp hclock)
  have hrecorded := (Store.error_record_iff htime hinterval stats).mpr hfits
  refine ⟨clock, hseconds, hrecorded, ?_⟩
  unfold take
  rw [hseconds]
  rcases hrecord : p.history.record clock p.interval stats with ⟨history, stats', _ | e⟩
  · simp only [hrecord]
    rfl
  · rw [hrecord] at hrecorded
    cases hrecorded

end Poller

namespace Service

/-! ## Cycles -/

/-- One cycle of the loop, if it runs, with its poll at that time. -/
def tick (s : Service) (t : Timestamp) : Service :=
  if s.isRunning then cycle 1 { s with clock := t } else s

/-- The loop is started, and makes a cycle at each of these times. -/
def ticks (s : Service) (clocks : List Timestamp) : Service := clocks.foldl tick (s.start 0)

theorem ticks_concat (s : Service) (clocks : List Timestamp) (t : Timestamp) :
    s.ticks (clocks ++ [t]) = (s.ticks clocks).tick t := by
  unfold ticks
  rw [List.foldl_append]
  rfl

theorem tick_of_not_running {s : Service} (h : s.isRunning = false) (t : Timestamp) :
    s.tick t = s := by
  unfold tick
  rw [h]
  rfl

theorem foldl_tick_of_not_running {s : Service} (h : s.isRunning = false) (clocks : List Timestamp) :
    clocks.foldl tick s = s := by
  induction clocks with
  | nil => rfl
  | cons t clocks ih => rw [List.foldl_cons, tick_of_not_running h, ih]

theorem isRunning_start (s : Service) : (s.start 0).isRunning = true := by
  unfold start
  split
  · assumption
  · rfl

/-! ### Cycles at regular times -/

/-- A poll does not look at the loop. -/
theorem poll_loop (s : Service) (l : PollLoop) :
    { s with loop := l }.poll = ({ s.poll.1 with loop := l }, s.poll.2) := by
  unfold poll
  rfl

/-- Cycles do not look at what the loop did before. -/
theorem cycle_loop (n : Nat) (s : Service) (l : PollLoop) :
    cycle n { s with loop := l } = cycle n s := by
  induction n generalizing s with
  | zero => rfl
  | succ n ih =>
    unfold cycle
    rw [poll_loop]
    rcases s.poll with ⟨s₁, result⟩
    cases result with
    | completed => exact ih { s₁ with clock := s₁.clock + s₁.sleep }
    | skipped => exact ih { s₁ with clock := s₁.clock + s₁.sleep }
    | stopped => rfl
    | broken e => rfl

/-- The first cycle, and then the others if the loop still runs. -/
theorem cycle_succ (n : Nat) (s : Service) : cycle (n + 1) s = (cycle 1 s).resume n := by
  unfold cycle
  rcases s.poll with ⟨s₁, result⟩
  cases result with
  | completed => exact (cycle_loop n _ .asleep).symm
  | skipped => exact (cycle_loop n _ .asleep).symm
  | stopped => rfl
  | broken e => rfl

/-- That many times from a beginning on, each by the sleep after the one before. -/
def times (sleep : Int) : Timestamp → Nat → List Timestamp
  | _, 0 => []
  | t, n + 1 => t :: times sleep (t + sleep) n

theorem cycle_one {s : Service} (h : (cycle 1 s).isRunning = true) :
    (cycle 1 s).clock = s.clock + s.sleep ∧ (cycle 1 s).sleep = s.sleep := by
  have hclock : s.poll.1.clock = s.clock := rfl
  have hsleep : s.poll.1.sleep = s.sleep := rfl
  unfold cycle at h ⊢
  rcases hpoll : s.poll with ⟨s₁, result⟩
  rw [hpoll] at h hclock hsleep
  have hnext : s₁.clock + s₁.sleep = s.clock + s.sleep := congrArg₂ (· + ·) hclock hsleep
  cases result with
  | completed => exact ⟨hnext, hsleep⟩
  | skipped => exact ⟨hnext, hsleep⟩
  | stopped => cases h
  | broken e => cases h

theorem foldl_tick_times (n : Nat) {s : Service} (h : s.isRunning = true) :
    (times s.sleep s.clock n).foldl tick s = cycle n s := by
  induction n generalizing s with
  | zero =>
    have hloop : s.loop = .asleep := of_decide_eq_true h
    unfold cycle
    rw [← hloop]
    rfl
  | succ n ih =>
    have htick : s.tick s.clock = cycle 1 s := by
      unfold tick
      rw [if_pos h]
    rw [times, List.foldl_cons, htick, cycle_succ n s, resume]
    cases hrun : (cycle 1 s).isRunning with
    | false => rw [foldl_tick_of_not_running hrun, if_neg nofun]
    | true =>
      obtain ⟨hclock, hsleep⟩ := cycle_one hrun
      rw [if_pos rfl, ← ih hrun, hclock, hsleep]

/-- **A start makes cycles at regular times.** -/
theorem start_eq_ticks {s : Service} (h : s.isRunning = false) (n : Nat) :
    s.start n = s.ticks (times s.sleep s.clock n) := by
  have hstart : s.start 0 = { s with loop := .asleep } := by
    unfold start
    rw [h]
    rfl
  have hticks := foldl_tick_times n (s := { s with loop := .asleep }) rfl
  unfold ticks
  rw [hstart]
  refine Eq.trans ?_ hticks.symm
  rw [cycle_loop]
  unfold start
  rw [h]
  rfl

/-! ## One cycle -/

/-- What the loop does after a poll that ended so. -/
def nextLoop : PollResult → PollLoop
  | .completed => .asleep
  | .skipped => .asleep
  | .stopped => .stopped
  | .broken _ => .broken

/-- The cycle is completed: what was collected is recorded, kept as the latest and published, and the
last failure is forgotten. -/
def Completes (s : Service) (t : Timestamp) : Prop :=
  ∃ stats clock, (s.collected t).1 = .ok stats ∧ Time.seconds t = .ok clock ∧
    (s.poller.history.record clock s.poller.interval stats).error = none ∧
    (s.tick t).poller
      = s.poller.recorded t (s.poller.history.record clock s.poller.interval stats)

/-- The cycle is skipped: nothing was collected, and of the poller only the last failure changes. -/
def Skips (s : Service) (t : Timestamp) : Prop :=
  ∃ e, (s.collected t).1 = .error e ∧
    (s.tick t).poller = { s.poller with lastError := some (Poller.describe e) }

/-- The cycle cannot be recorded, although something was collected. -/
def Unrecordable (s : Service) (t : Timestamp) : Prop :=
  ∃ stats, (s.collected t).1 = .ok stats ∧ s.poller.Unrecordable t stats

/-- The loop can go on: nobody stops it, and the interval is positive. -/
structure Undisturbed (s : Service) : Prop where
  calm : s.site.Calm
  interval : Binary64.zero.lt s.poller.interval = true

variable {s : Service} {t : Timestamp}

theorem tick_of_running (h : s.isRunning = true) :
    (s.tick t).site = (s.collected t).2 ∧
      (s.tick t).poller = (s.poller.take t (s.collected t).1).1 ∧
      (s.tick t).loop = nextLoop (s.poller.take t (s.collected t).1).2 := by
  have hpoll : { s with clock := t }.poll
      = ({ s with clock := t, site := (s.collected t).2
                  poller := (s.poller.take t (s.collected t).1).1 },
        (s.poller.take t (s.collected t).1).2) := rfl
  unfold tick
  rw [if_pos h]
  unfold cycle
  rw [hpoll]
  generalize s.poller.take t (s.collected t).1 = taken
  obtain ⟨poller, result⟩ := taken
  cases result with
  | completed => exact ⟨rfl, rfl, rfl⟩
  | skipped => exact ⟨rfl, rfl, rfl⟩
  | stopped => exact ⟨rfl, rfl, rfl⟩
  | broken e => exact ⟨rfl, rfl, rfl⟩

theorem calm_collected (h : s.site.Calm) (t : Timestamp) :
    (s.collected t).2.Calm ∧ (s.collected t).1 ≠ .error .stopped := by
  have hcollect := s.collector.calmly_collect t s.site h
  unfold collected
  cases hrun : (s.collector.collect t).run s.site with
  | ok stats site =>
    rw [hrun] at hcollect
    exact ⟨hcollect.1, nofun⟩
  | error e site =>
    rw [hrun] at hcollect
    exact ⟨hcollect.1, fun he => hcollect.2 (Except.error.inj he)⟩

/-- **What one cycle does**: it is completed or skipped and the loop goes on, or it cannot be recorded
and ends the loop, without a word in the last failure. -/
theorem tick_cases (hrun : s.isRunning = true) (h : s.Undisturbed) (t : Timestamp) :
    (¬ s.Unrecordable t ∧ (s.Completes t ∨ s.Skips t) ∧ (s.tick t).loop = .asleep) ∨
      (s.Unrecordable t ∧ (s.tick t).loop = .broken ∧
        (s.tick t).poller.lastError = s.poller.lastError) := by
  obtain ⟨-, hpoller, hloop⟩ := tick_of_running (t := t) hrun
  obtain ⟨-, hstopped⟩ := calm_collected h.calm t
  cases hcollected : (s.collected t).1 with
  | error e =>
    have he : e ≠ .stopped := by
      rintro rfl
      exact hstopped hcollected
    rw [hcollected, Poller.take_of_failure he] at hpoller hloop
    have hnot : ¬ s.Unrecordable t := by
      rintro ⟨stats, hstats, -⟩
      rw [hcollected] at hstats
      cases hstats
    exact Or.inl ⟨hnot, Or.inr ⟨e, hcollected, hpoller⟩, hloop⟩
  | ok stats =>
    by_cases hfails : s.poller.Unrecordable t stats
    · obtain ⟨history, e, htake⟩ := Poller.take_of_unrecordable h.interval hfails
      rw [hcollected, htake] at hpoller hloop
      exact Or.inr ⟨⟨stats, hcollected, hfails⟩, hloop, by rw [hpoller]⟩
    · obtain ⟨clock, hclock, hrecorded, htake⟩ := Poller.take_of_recordable h.interval hfails
      rw [hcollected, htake] at hpoller hloop
      have hnot : ¬ s.Unrecordable t := by
        rintro ⟨stats', hstats, hfails'⟩
        rw [hcollected] at hstats
        cases hstats
        exact hfails hfails'
      exact Or.inl ⟨hnot, Or.inl ⟨stats, clock, hcollected, hclock, hrecorded, hpoller⟩, hloop⟩

/-! ## Many cycles -/

theorem undisturbed_tick (h : s.Undisturbed) (t : Timestamp) : (s.tick t).Undisturbed := by
  cases hrun : s.isRunning with
  | false =>
    rw [tick_of_not_running hrun]
    exact h
  | true =>
    obtain ⟨hsite, hpoller, -⟩ := tick_of_running (t := t) hrun
    constructor
    · rw [hsite]
      exact (calm_collected h.calm t).1
    · rw [hpoller, Poller.interval_take]
      exact h.interval

theorem undisturbed_ticks (h : s.Undisturbed) (clocks : List Timestamp) :
    (s.ticks clocks).Undisturbed := by
  induction clocks using List.reverseRecOn with
  | nil =>
    unfold ticks start
    split
    · exact h
    · exact ⟨h.calm, h.interval⟩
  | append_singleton clocks t ih =>
    rw [ticks_concat]
    exact undisturbed_tick ih t

theorem isRunning_tick_iff (h : s.Undisturbed) (t : Timestamp) :
    (s.tick t).isRunning = true ↔ s.isRunning = true ∧ ¬ s.Unrecordable t := by
  cases hrun : s.isRunning with
  | false =>
    rw [tick_of_not_running hrun, hrun]
    simp
  | true =>
    rcases tick_cases hrun h t with ⟨hnot, -, hloop⟩ | ⟨hfails, hloop, -⟩
    · exact iff_of_true (decide_eq_true hloop) ⟨rfl, hnot⟩
    · refine iff_of_false ?_ fun hboth => hboth.2 hfails
      unfold isRunning
      rw [hloop]
      nofun

/-- The loop runs as long as no cycle was one that cannot be recorded. -/
theorem isRunning_ticks_iff (h : s.Undisturbed) (clocks : List Timestamp) :
    (s.ticks clocks).isRunning = true
      ↔ ∀ earlier t, earlier ++ [t] <+: clocks → ¬ (s.ticks earlier).Unrecordable t := by
  induction clocks using List.reverseRecOn with
  | nil => exact iff_of_true (isRunning_start s) forall_parts_nil
  | append_singleton clocks t ih =>
    rw [ticks_concat, isRunning_tick_iff (undisturbed_ticks h clocks), ih, forall_parts_concat]

/-- The loop survives its cycles: it runs after every number of them, and each is completed or
skipped. -/
structure Survives (s : Service) (clocks : List Timestamp) : Prop where
  running : ∀ earlier, earlier <+: clocks → (s.ticks earlier).isRunning = true
  cycles : ∀ earlier t, earlier ++ [t] <+: clocks →
    (s.ticks earlier).Completes t ∨ (s.ticks earlier).Skips t

theorem survives_of_recordable (h : s.Undisturbed) {clocks : List Timestamp}
    (hall : ∀ earlier t, earlier ++ [t] <+: clocks → ¬ (s.ticks earlier).Unrecordable t) :
    s.Survives clocks := by
  have hrunning : ∀ earlier, earlier <+: clocks → (s.ticks earlier).isRunning = true := by
    intro earlier hpart
    rw [isRunning_ticks_iff h]
    intro before t hbefore
    exact hall before t (hbefore.trans hpart)
  refine ⟨hrunning, fun earlier t hpart => ?_⟩
  have hrun := hrunning earlier ((List.prefix_append earlier [t]).trans hpart)
  rcases tick_cases hrun (undisturbed_ticks h earlier) t with ⟨-, hcycle, -⟩ | ⟨hfails, -, -⟩
  · exact hcycle
  · exact absurd hfails (hall earlier t hpart)

/-- A cycle that cannot be recorded is the last one, and it leaves no word in the last failure. -/
theorem ticks_of_unrecordable (h : s.Undisturbed) {earlier : List Timestamp}
    (hrun : (s.ticks earlier).isRunning = true) (hfails : (s.ticks earlier).Unrecordable t)
    (later : List Timestamp) :
    (s.ticks (earlier ++ t :: later)).loop = .broken ∧
      (s.ticks (earlier ++ t :: later)).poller.lastError = (s.ticks earlier).poller.lastError := by
  rcases tick_cases hrun (undisturbed_ticks h earlier) t with ⟨hnot, -, -⟩ | ⟨-, hloop, hlast⟩
  · exact absurd hfails hnot
  · have hstopped : ((s.ticks earlier).tick t).isRunning = false := by
      unfold isRunning
      rw [hloop]
      rfl
    have hticks : s.ticks (earlier ++ t :: later) = (s.ticks earlier).tick t := by
      conv_lhs => rw [ticks, List.foldl_append, List.foldl_cons]
      exact foldl_tick_of_not_running hstopped later
    rw [hticks]
    exact ⟨hloop, hlast⟩

/-- **The loop survives whatever the program does**, and every clock, unless something is collected
that cannot be recorded. Such a cycle ends the loop for good, without a word in the last failure. -/
theorem survives_iff (s : Service) (h : s.Undisturbed) (clocks : List Timestamp) :
    (s.Survives clocks
        ↔ ∀ earlier t, earlier ++ [t] <+: clocks → ¬ (s.ticks earlier).Unrecordable t) ∧
      ∀ earlier t later, clocks = earlier ++ t :: later →
        (s.ticks earlier).isRunning = true → (s.ticks earlier).Unrecordable t →
          (s.ticks clocks).loop = .broken ∧
            (s.ticks clocks).poller.lastError = (s.ticks earlier).poller.lastError := by
  constructor
  · constructor
    · intro hsurvives
      exact (isRunning_ticks_iff h clocks).mp (hsurvives.running clocks (List.prefix_refl clocks))
    · exact survives_of_recordable h
  · rintro earlier t later rfl hrun hfails
    exact ticks_of_unrecordable h hrun hfails later

/-- The report of a queue that has sent that many bytes. -/
def sentReport (bytes : Text) : Octets :=
  Utf8.encode (("qdisc cake 1: dev e root\n Sent " : Text) ++ bytes ++ (" bytes 0 pkt\n" : Text))

/-- A service that has not polled yet. -/
def idle : Service where
  collector := { executor := { timeout := .ofNat 5 } }
  poller := { interval := .ofNat 1, history := Store.empty 300 }

/-- A service that sees a counter of 0 first, and then of 309 nines. -/
def overgrown : Service :=
  { idle with
    site := { world := { runs :=
      [{ out := sentReport ("0" : Text) }, { out := sentReport (List.replicate 309 '9') }] } } }

theorem survives_iff_overgrown : overgrown.Undisturbed ∧
    (overgrown.Survives [0, 1000] ↔ ∀ earlier t, earlier ++ [t] <+: [0, 1000] →
      ¬ (overgrown.ticks earlier).Unrecordable t) := by
  have h : overgrown.Undisturbed := ⟨by decide +kernel, by decide +kernel⟩
  exact ⟨h, (survives_iff overgrown h [0, 1000]).1⟩

/-- The second cycle ends the loop, and there is no word of it. -/
theorem overgrown_not_survives : overgrown.Undisturbed ∧ ¬ overgrown.Survives [0, 1000] ∧
    (overgrown.ticks [0, 1000]).poller.lastError = none := by
  have hstops : (overgrown.ticks [0, 1000]).isRunning = false := by decide +kernel
  refine ⟨⟨by decide +kernel, by decide +kernel⟩, ?_, by decide +kernel⟩
  intro hsurvives
  rw [hsurvives.running [0, 1000] (List.prefix_refl _)] at hstops
  cases hstops

end Service

end CakeMonitor
