import CakeMonitor.Proofs.History.LockSteps

/-!
# No thread waits in vain

A thread that sleeps at the lock goes on only when it is woken, and only a release wakes. So whatever
makes the test of a sleeper succeed has to wake it. The counts that the tests look at change in many
steps, but what unblocks a sleeper is a release that wakes all.

* `LockState.Settled`, `LockState.Free`: every thread that was woken has tested again; none holds the lock.
* `Turn.blocksReader`, `Turn.blocksWriter`: a step that wakes nobody unblocks nobody.
* `LockState.Blocked`: the invariant; `blocked_reachable`.
* `LockState.attentive_of_reachable`: sleepers are blocked, and the lock is never free with all asleep.
-/

namespace CakeMonitor

namespace LockPhase

variable {p : LockPhase}

/-- A thread that waits and is not woken sleeps. -/
theorem eq_of_waits (h : p.waits = true) (hwoken : p.isWoken = false) :
    p = waitingShared true ∨ p = waitingExclusive true := by
  cases p <;> simp_all [waits, isWoken]

theorem eq_of_isAnnounced (h : p.isAnnounced = true) (hwoken : p.isWoken = false) :
    p = waitingExclusive true := by
  cases p <;> simp_all [isAnnounced, isWoken]

/-- A thread that is awake is not asleep. -/
theorem awake_ne_of_isAsleep {q : LockPhase} (hq : q.isAsleep = true) : p.awake ≠ q := by
  rintro rfl
  simp at hq

theorem not_waits_of_holds (h : p.holds = true) : p.waits = false := by
  cases p <;> simp_all [holds, waits]

end LockPhase

namespace LockState

/-- Every thread that was woken has tested again. -/
def Settled (s : LockState) : Prop := ∀ t, (s.phase t).isWoken = false

/-- No thread holds the lock. -/
def Free (s : LockState) : Prop := ∀ t, (s.phase t).holds = false

/-- Every thread that sleeps would fail its test. -/
structure Blocked (s : LockState) : Prop where
  readers : ∀ t, s.phase t = .waitingShared true → s.lock.blocksReader = true
  writers : ∀ t, s.phase t = .waitingExclusive true → s.lock.blocksWriter = true

variable {s s' : LockState} {t : Text} {woken : Bool}

/-! ## One step -/

namespace Turn

variable {l l' : SharedLock} {p p' : LockPhase}

/-- Who falls asleep as a reader is blocked. -/
theorem blocksReader_of_asleep (h : Turn l p p' l' woken) (hp' : p' = .waitingShared true) :
    l'.blocksReader = true := by
  cases h with
  | awaitShared comes blocked => exact blocked
  | wake asleep => exact absurd hp' (LockPhase.awake_ne_of_isAsleep rfl)
  | _ => cases hp'

/-- Who falls asleep as a writer is blocked. -/
theorem blocksWriter_of_asleep (h : Turn l p p' l' woken) (hp' : p' = .waitingExclusive true) :
    l'.blocksWriter = true := by
  cases h with
  | announce blocked => exact blocked
  | awaitExclusive blocked => exact blocked
  | wake asleep => exact absurd hp' (LockPhase.awake_ne_of_isAsleep rfl)
  | _ => cases hp'

/-- **A step that wakes nobody unblocks no reader**: a writer that stops waiting begins to write. -/
theorem blocksReader (h : Turn l p p' l' false) (hl : l.blocksReader = true) :
    l'.blocksReader = true := by
  cases h with
  | write free => rfl
  | announce blocked => simp [SharedLock.blocksReader, SharedLock.announceWriter]
  | acquire free => rfl
  | _ => exact hl

/-- **A step that wakes nobody unblocks no writer**: other readers are left. -/
theorem blocksWriter (h : Turn l p p' l' false) (hl : l.blocksWriter = true) :
    l'.blocksWriter = true := by
  cases h with
  | share comes free => simp [SharedLock.blocksWriter, SharedLock.addReader]
  | write free => rfl
  | acquire free => rfl
  | endSharing others => simp [SharedLock.blocksWriter, others]
  | _ => exact hl

/-- Who leaves wakes all that wait, or leaves other readers behind. -/
theorem wakes_or_readers (h : Turn l p p' l' woken) (hp : p.holds = true) :
    woken = true ∨ l'.readers ≠ 0 := by
  cases h with
  | share comes free => rcases comes with rfl | rfl <;> cases hp
  | awaitShared comes blocked => rcases comes with rfl | rfl <;> cases hp
  | wake asleep =>
    cases p with
    | sharing => cases asleep
    | writing => cases asleep
    | _ => cases hp
  | endSharing others => exact Or.inr others
  | endLast last => exact Or.inl rfl
  | endWriting => exact Or.inl rfl
  | _ => cases hp

end Turn

/-- A thread that sleeps after a step fell asleep in it, or slept before and was not woken. -/
theorem Moves.asleep {u : Text} (h : Moves s s' t woken) (hu : (s'.phase u).isAsleep = true) :
    u = t ∨ woken = false ∧ s'.phase u = s.phase u := by
  by_cases hut : u = t
  · exact Or.inl hut
  · have hphase := h.others u hut
    cases woken with
    | true =>
      rw [hphase] at hu
      simp at hu
    | false => exact Or.inr ⟨rfl, hphase⟩

/-! ## All steps -/

theorem blocked_start : Blocked {} where
  readers := nofun
  writers := nofun

/-- **After a step every sleeper is blocked** if every one was before. -/
theorem blocked_step (h : Blocked s) (hstep : Step s s') : Blocked s' := by
  obtain ⟨t, woken, hmoves⟩ := hstep.moves
  -- a sleeper has just failed its test, or has slept through a step that wakes nobody
  constructor
  · intro u hu
    rcases hmoves.asleep (by rw [hu]; rfl) with rfl | ⟨rfl, hsame⟩
    · exact hmoves.turn.blocksReader_of_asleep hu
    · exact hmoves.turn.blocksReader (h.readers u (hsame ▸ hu))
  · intro u hu
    rcases hmoves.asleep (by rw [hu]; rfl) with rfl | ⟨rfl, hsame⟩
    · exact hmoves.turn.blocksWriter_of_asleep hu
    · exact hmoves.turn.blocksWriter (h.writers u (hsame ▸ hu))

/-- **In every reachable state a sleeper is blocked.** -/
theorem blocked_reachable (h : Reachable s) : Blocked s := by
  induction h with
  | refl => exact blocked_start
  | tail _ hstep ih => exact blocked_step ih hstep

/-! ## Who keeps a waiting thread waiting -/

theorem Counts.exists_of_ne_zero {q : LockPhase → Bool} {n : Nat} (h : s.Counts q n) (hn : n ≠ 0) :
    ∃ t, q (s.phase t) = true := by
  by_contra hnone
  exact hn (h.eq_zero_iff.mpr fun t => Bool.eq_false_iff.mpr fun ht => hnone ⟨t, ht⟩)

namespace Counted

theorem holds_of_writer (h : Counted s) (hwriter : s.lock.writer = true) :
    ∃ u, (s.phase u).holds = true := by
  obtain ⟨u, hu, -⟩ := h.writer_iff.mp hwriter
  exact ⟨u, by rw [hu]; rfl⟩

theorem holds_of_readers (h : Counted s) (hreaders : s.lock.readers ≠ 0) :
    ∃ u, (s.phase u).holds = true := by
  obtain ⟨u, hu⟩ := h.sharing.exists_of_ne_zero hreaders
  exact ⟨u, by rw [of_decide_eq_true hu]; rfl⟩

/-- A writer is blocked by a thread that holds the lock. -/
theorem holds_of_blocksWriter (h : Counted s) (hblocked : s.lock.blocksWriter = true) :
    ∃ u, (s.phase u).holds = true := by
  rcases SharedLock.blocksWriter_iff.mp hblocked with hwriter | hreaders
  · exact h.holds_of_writer hwriter
  · exact h.holds_of_readers hreaders

end Counted

/-- Where all have tested again, a writer that waits is kept waiting by a thread that holds the lock. -/
theorem holds_of_isAnnounced (h : Reachable s) (hsettled : s.Settled)
    (ht : (s.phase t).isAnnounced = true) : ∃ u, (s.phase u).holds = true := by
  have hasleep := LockPhase.eq_of_isAnnounced ht (hsettled t)
  exact (counted_reachable h).holds_of_blocksWriter ((blocked_reachable h).writers t hasleep)

/-- **Where all have tested again, a thread waits only for one that holds the lock**; a reader may also wait
for a writer, which waits for such a thread itself. -/
theorem holds_of_waits (h : Reachable s) (hsettled : s.Settled) (ht : (s.phase t).waits = true) :
    ∃ u, (s.phase u).holds = true := by
  rcases LockPhase.eq_of_waits ht (hsettled t) with hreader | hwriter
  · have hcounted := counted_reachable h
    have hblocked := (blocked_reachable h).readers t hreader
    rcases SharedLock.blocksReader_iff.mp hblocked with hwriter | hwaiting
    · exact hcounted.holds_of_writer hwriter
    · obtain ⟨u, hu⟩ := hcounted.announced.exists_of_ne_zero hwaiting
      exact holds_of_isAnnounced h hsettled hu
  · exact holds_of_isAnnounced h hsettled (by rw [hwriter]; rfl)

/-- **A release that makes the lock free wakes all that wait.** -/
theorem phase_leave_of_free (h : Reachable s) (ht : (s.phase t).holds = true)
    (hfree : (s.leave t).Free) {u : Text} (hu : (s.phase u).waits = true) :
    (s.leave t).phase u = (s.phase u).awake := by
  obtain ⟨woken, hmoves⟩ := moves_leave ht
  have hut : u ≠ t := by
    rintro rfl
    rw [LockPhase.not_waits_of_holds ht] at hu
    cases hu
  rw [hmoves.others u hut]
  rcases hmoves.turn.wakes_or_readers ht with rfl | hreaders
  · rfl
  · have hcounted := counted_reachable (h.tail (.leave t ht))
    obtain ⟨v, hv⟩ := hcounted.holds_of_readers hreaders
    rw [hfree v] at hv
    cases hv

/-- The lock forgets no thread that waits for it. -/
structure Attentive (s : LockState) : Prop where
  /-- a thread that sleeps would fail its test -/
  blocked : Blocked s
  /-- where all have tested again, one that waits waits for one that holds the lock -/
  held : s.Settled → ∀ t, (s.phase t).waits = true → ∃ u, (s.phase u).holds = true
  /-- the release that makes the lock free wakes all that wait -/
  released : ∀ t, (s.phase t).holds = true → (s.leave t).Free →
    ∀ u, (s.phase u).waits = true → (s.leave t).phase u = (s.phase u).awake
  /-- while the lock is free and a thread waits, not all that wait are asleep -/
  stirring : s.Free → ∀ t, (s.phase t).waits = true → ∃ u, (s.phase u).isWoken = true

/-- **The lock forgets no thread**, in no reachable state. -/
theorem attentive_of_reachable (h : Reachable s) : Attentive s where
  blocked := blocked_reachable h
  held hsettled t := holds_of_waits h hsettled
  released t ht hfree u := phase_leave_of_free h ht hfree
  stirring hfree t ht := by
    by_contra hnone
    have hsettled : s.Settled := fun u => Bool.eq_false_iff.mpr fun hu => hnone ⟨u, hu⟩
    obtain ⟨u, hu⟩ := holds_of_waits h hsettled ht
    rw [hfree u] at hu
    cases hu

/-- The reader of `crowded` has left, and the other one was quicker than the writer to test again. -/
def handedOver : LockState := (crowded.leave "reader").retry "latecomer"

theorem reachable_handedOver : Reachable handedOver :=
  (reachable_crowded.tail (.leave "reader" (by decide))).tail (.retry "latecomer" (by decide))

/-- The lock is free and the reader sleeps again, but the writer is awake. -/
theorem attentive_of_reachable_handedOver :
    Reachable handedOver ∧ handedOver.phase "latecomer" = .waitingShared true ∧
      handedOver.lock.blocksReader = true ∧ handedOver.lock.blocksWriter = false ∧
      handedOver.phase "writer" ≠ .waitingExclusive true := by
  have hattentive := attentive_of_reachable reachable_handedOver
  have hasleep : handedOver.phase "latecomer" = .waitingShared true := by decide
  have hfree : handedOver.lock.blocksWriter = false := by decide
  refine ⟨reachable_handedOver, hasleep, hattentive.blocked.readers "latecomer" hasleep, hfree, ?_⟩
  intro hwriter
  rw [hattentive.blocked.writers "writer" hwriter] at hfree
  cases hfree

end LockState

end CakeMonitor
