import CakeMonitor.History.SharedLock
import Mathlib.Data.Set.Card
import Mathlib.Logic.Relation

/-!
# The lock under any interleaving

Threads come to read or to write, fall asleep, are woken, test again and leave, in any order. Each of these
is one section of the lock's monitor and one step here. The counts of the lock follow its threads through
all of them, and so the tests on the counts are tests on the threads.

A name stands for one use of the lock at a time: a thread that takes the lock twice has two names. A thread
that waits goes on only when it is woken.

* `LockState.Step`, `LockState.Reachable`: the steps, and the states they lead to.
* `LockState.Turn`, `LockState.Step.moves`: all that a step does, for its thread and for the others.
* `LockState.Counts`: how many threads are in a phase; `Counts.moves` follows it through a step.
* `LockState.Counted`: the invariant; `counted_reachable`.
* `LockState.safe_of_reachable`: readers share, a writer is alone, and a waiting writer comes first.
-/

namespace CakeMonitor

namespace LockPhase

/-- Whether the thread sleeps until it is woken. -/
def isAsleep : LockPhase → Bool
  | waitingShared asleep | waitingExclusive asleep => asleep
  | _ => false

/-- Whether the thread was woken and has yet to test again. -/
def isWoken : LockPhase → Bool
  | waitingShared asleep | waitingExclusive asleep => !asleep
  | _ => false

/-- Whether the thread has come to write and does not write yet. -/
def isAnnounced : LockPhase → Bool
  | waitingExclusive _ => true
  | _ => false

@[simp] theorem isAnnounced_awake (p : LockPhase) : p.awake.isAnnounced = p.isAnnounced := by
  cases p <;> rfl

@[simp] theorem isAsleep_awake (p : LockPhase) : p.awake.isAsleep = false := by cases p <;> rfl

@[simp] theorem awake_eq_sharing {p : LockPhase} : p.awake = sharing ↔ p = sharing := by
  cases p <;> simp [awake]

@[simp] theorem awake_eq_writing {p : LockPhase} : p.awake = writing ↔ p = writing := by
  cases p <;> simp [awake]

end LockPhase

namespace SharedLock

variable {l : SharedLock}

theorem blocksReader_iff : l.blocksReader = true ↔ l.writer = true ∨ l.writersWaiting ≠ 0 := by
  simp [blocksReader]

theorem blocksReader_eq_false : l.blocksReader = false ↔ l.writer = false ∧ l.writersWaiting = 0 := by
  simp [blocksReader]

theorem blocksWriter_iff : l.blocksWriter = true ↔ l.writer = true ∨ l.readers ≠ 0 := by
  simp [blocksWriter]

theorem blocksWriter_eq_false : l.blocksWriter = false ↔ l.writer = false ∧ l.readers = 0 := by
  simp [blocksWriter]

end SharedLock

namespace LockState

/-! ## Steps -/

/-- One section of the monitor, in which a thread enters, is woken, tests again or leaves. The lock does not
care why a thread is woken, and whether one leaves at the end of its work or by an exception. -/
inductive Step (s : LockState) : LockState → Prop
  | enterShared (t : Text) (outside : s.phase t = .outside) : Step s (s.enterShared t)
  | enterExclusive (t : Text) (outside : s.phase t = .outside) : Step s (s.enterExclusive t)
  | wake (t : Text) (asleep : (s.phase t).isAsleep = true) : Step s (s.wake t)
  | retry (t : Text) (woken : (s.phase t).isWoken = true) : Step s (s.retry t)
  | leave (t : Text) (holds : (s.phase t).holds = true) : Step s (s.leave t)

/-- What threads can make of a new lock. -/
def Reachable (s : LockState) : Prop := Relation.ReflTransGen Step {} s

/-- What a step does for the thread that makes it, and for the lock: what the thread was doing, what it
is doing now, the new counts, and whether all that wait are woken. -/
inductive Turn (l : SharedLock) : LockPhase → LockPhase → SharedLock → Bool → Prop
  | share {p : LockPhase} (comes : p = .outside ∨ p = .waitingShared false)
      (free : l.blocksReader = false) : Turn l p .sharing l.addReader false
  | awaitShared {p : LockPhase} (comes : p = .outside ∨ p = .waitingShared false)
      (blocked : l.blocksReader = true) : Turn l p (.waitingShared true) l false
  | write (free : l.blocksWriter = false) :
      Turn l .outside .writing l.announceWriter.setWriter false
  | announce (blocked : l.blocksWriter = true) :
      Turn l .outside (.waitingExclusive true) l.announceWriter false
  | acquire (free : l.blocksWriter = false) :
      Turn l (.waitingExclusive false) .writing l.setWriter false
  | awaitExclusive (blocked : l.blocksWriter = true) :
      Turn l (.waitingExclusive false) (.waitingExclusive true) l false
  | wake {p : LockPhase} (asleep : p.isAsleep = true) : Turn l p p.awake l false
  | endSharing (others : l.removeReader.readers ≠ 0) : Turn l .sharing .outside l.removeReader false
  | endLast (last : l.removeReader.readers = 0) : Turn l .sharing .outside l.removeReader true
  | endWriting : Turn l .writing .outside l.clearWriter true

/-- A thread takes its turn; the others stay as they are, unless all that wait are woken. -/
structure Moves (s s' : LockState) (t : Text) (woken : Bool) : Prop where
  turn : Turn s.lock (s.phase t) (s'.phase t) s'.lock woken
  others : ∀ u, u ≠ t → s'.phase u = if woken then (s.phase u).awake else s.phase u

variable {s s' : LockState} {t : Text} {woken : Bool}

theorem phase_wakeAll (s : LockState) (u : Text) : s.wakeAll.phase u = (s.phase u).awake := by
  unfold phase wakeAll
  rw [List.find?_map, Function.comp_def]
  dsimp only
  cases s.threads.find? fun x => decide (x.1 = u) <;> rfl

theorem moves_go {p : LockPhase} {l : SharedLock} (h : Turn s.lock (s.phase t) p l false) :
    Moves s (s.go t p l) t false where
  turn := by
    rw [phase_go, if_pos rfl]
    exact h
  others u hu := by
    rw [phase_go, if_neg (Ne.symm hu)]
    rfl

theorem moves_go_wakeAll {l : SharedLock} (h : Turn s.lock (s.phase t) .outside l true) :
    Moves s (s.go t .outside l).wakeAll t true where
  turn := by
    rw [phase_wakeAll, phase_go, if_pos rfl]
    exact h
  others u hu := by
    rw [phase_wakeAll, phase_go, if_neg (Ne.symm hu)]
    rfl

theorem moves_testShared (h : s.phase t = .outside ∨ s.phase t = .waitingShared false) :
    Moves s (s.testShared t) t false := by
  unfold testShared
  by_cases hblocked : s.lock.blocksReader = true
  · rw [if_pos hblocked]
    exact moves_go (.awaitShared h hblocked)
  · rw [if_neg hblocked]
    exact moves_go (.share h (Bool.eq_false_iff.mpr hblocked))

theorem moves_enterExclusive (h : s.phase t = .outside) : Moves s (s.enterExclusive t) t false := by
  unfold enterExclusive testExclusive
  by_cases hblocked : s.lock.blocksWriter = true
  · rw [if_pos (show s.lock.announceWriter.blocksWriter = true from hblocked)]
    exact moves_go (s := s) (h ▸ .announce hblocked)
  · rw [if_neg (show ¬ s.lock.announceWriter.blocksWriter = true from hblocked)]
    exact moves_go (s := s) (h ▸ .write (Bool.eq_false_iff.mpr hblocked))

theorem moves_testExclusive (h : s.phase t = .waitingExclusive false) :
    Moves s (s.testExclusive t) t false := by
  unfold testExclusive
  by_cases hblocked : s.lock.blocksWriter = true
  · rw [if_pos hblocked]
    exact moves_go (h ▸ .awaitExclusive hblocked)
  · rw [if_neg hblocked]
    exact moves_go (h ▸ .acquire (Bool.eq_false_iff.mpr hblocked))

theorem moves_retry (h : (s.phase t).isWoken = true) : Moves s (s.retry t) t false := by
  unfold retry
  cases hphase : s.phase t with
  | waitingShared asleep =>
    cases asleep with
    | true => rw [hphase] at h; cases h
    | false => exact moves_testShared (Or.inr hphase)
  | waitingExclusive asleep =>
    cases asleep with
    | true => rw [hphase] at h; cases h
    | false => exact moves_testExclusive hphase
  | _ => rw [hphase] at h; cases h

theorem moves_leave (h : (s.phase t).holds = true) : ∃ woken, Moves s (s.leave t) t woken := by
  unfold leave
  cases hphase : s.phase t with
  | sharing =>
    by_cases hlast : s.lock.removeReader.readers = 0
    · refine ⟨true, ?_⟩
      simp only [go, hlast, if_true]
      exact moves_go_wakeAll (hphase ▸ .endLast hlast)
    · refine ⟨false, ?_⟩
      simp only [go, hlast, if_false]
      exact moves_go (hphase ▸ .endSharing hlast)
  | writing => exact ⟨true, moves_go_wakeAll (hphase ▸ .endWriting)⟩
  | _ => rw [hphase] at h; cases h

/-- **All that a step does.** -/
theorem Step.moves (h : Step s s') : ∃ t woken, Moves s s' t woken := by
  cases h with
  | enterShared t outside => exact ⟨t, false, moves_testShared (Or.inl outside)⟩
  | enterExclusive t outside => exact ⟨t, false, moves_enterExclusive outside⟩
  | wake t asleep => exact ⟨t, false, moves_go (.wake asleep)⟩
  | retry t woken => exact ⟨t, false, moves_retry woken⟩
  | leave t holds => exact ⟨t, moves_leave holds⟩

/-! ## Counting threads -/

/-- Exactly so many threads are in a phase of that kind. -/
def Counts (s : LockState) (q : LockPhase → Bool) (n : Nat) : Prop :=
  {t | q (s.phase t) = true}.encard = n

/-- A thread counts once, if it is in a phase of that kind, besides the others. -/
theorem encard_others (s : LockState) (q : LockPhase → Bool) (t : Text) :
    ({u | q (s.phase u) = true} \ {t}).encard + ((q (s.phase t)).toNat : ENat)
      = {u | q (s.phase u) = true}.encard := by
  cases h : q (s.phase t) with
  | true => exact Set.encard_sdiff_singleton_add_one h
  | false =>
    have hout : t ∉ {u | q (s.phase u) = true} := by simp [h]
    rw [Set.sdiff_singleton_eq_self hout]
    exact add_zero _

/-- **Counts follow the thread that moves.** The others are at most woken, which changes no kind of phase
that is counted. A number is right after a step when it has grown, or shrunk, with that thread. -/
theorem Counts.moves {q : LockPhase → Bool} {n n' : Nat} (h : s.Counts q n)
    (hmoves : Moves s s' t woken) (hawake : ∀ p : LockPhase, q p.awake = q p)
    (hn : (q (s.phase t)).toNat ≤ n →
      n' + (q (s.phase t)).toNat = n + (q (s'.phase t)).toNat) : s'.Counts q n' := by
  have hrest : {u | q (s'.phase u) = true} \ {t} = {u | q (s.phase u) = true} \ {t} := by
    ext u
    refine and_congr_left fun hu => ?_
    have hphase := hmoves.others u hu
    cases woken <;> simp [hphase, hawake]
  have hbefore := encard_others s q t
  have hafter := encard_others s' q t
  rw [hrest] at hafter
  rw [h] at hbefore
  -- the thread is among those counted, so taking it off the number does not go below zero
  have hle : (q (s.phase t)).toNat ≤ n := by
    rw [← ENat.natCast_le_natCast, ← hbefore]
    exact le_add_self
  have hfinite : ((q (s.phase t)).toNat : ENat) ≠ ⊤ := ENat.natCast_ne_top _
  refine ENat.add_left_injective_of_ne_top hfinite ?_
  show {u | q (s'.phase u) = true}.encard + ((q (s.phase t)).toNat : ENat)
    = n' + ((q (s.phase t)).toNat : ENat)
  rw [← hafter, add_right_comm, hbefore]
  exact_mod_cast (hn hle).symm

/-! ## The invariant -/

/-- The counts of the lock are those of its threads, and readers are apart from a writer. -/
structure Counted (s : LockState) : Prop where
  sharing : s.Counts (· = .sharing) s.lock.readers
  writing : s.Counts (· = .writing) s.lock.writer.toNat
  announced : s.Counts LockPhase.isAnnounced s.lock.writersWaiting
  apart : s.lock.writer = true → s.lock.readers = 0

namespace Turn

variable {l l' : SharedLock} {p p' : LockPhase}

theorem readers (h : Turn l p p' l' woken) (hp : (decide (p = .sharing)).toNat ≤ l.readers) :
    l'.readers + (decide (p = .sharing)).toNat = l.readers + (decide (p' = .sharing)).toNat := by
  cases h with
  | share comes free => rcases comes with rfl | rfl <;> rfl
  | awaitShared comes blocked => rcases comes with rfl | rfl <;> rfl
  | wake asleep => simp
  | endSharing others => exact Nat.sub_add_cancel hp
  | endLast last => exact Nat.sub_add_cancel hp
  | _ => rfl

theorem writer (h : Turn l p p' l' woken) (hp : (decide (p = .writing)).toNat ≤ l.writer.toNat) :
    l'.writer.toNat + (decide (p = .writing)).toNat
      = l.writer.toNat + (decide (p' = .writing)).toNat := by
  cases h with
  | share comes free => rcases comes with rfl | rfl <;> rfl
  | awaitShared comes blocked => rcases comes with rfl | rfl <;> rfl
  | write free =>
    show 1 = l.writer.toNat + 1
    rw [(SharedLock.blocksWriter_eq_false.mp free).1]
    rfl
  | acquire free =>
    show 1 = l.writer.toNat + 1
    rw [(SharedLock.blocksWriter_eq_false.mp free).1]
    rfl
  | wake asleep => simp
  | endWriting => exact Nat.le_antisymm hp (Bool.toNat_le l.writer)
  | _ => rfl

theorem writersWaiting (h : Turn l p p' l' woken) (hp : p.isAnnounced.toNat ≤ l.writersWaiting) :
    l'.writersWaiting + p.isAnnounced.toNat = l.writersWaiting + p'.isAnnounced.toNat := by
  cases h with
  | share comes free => rcases comes with rfl | rfl <;> rfl
  | awaitShared comes blocked => rcases comes with rfl | rfl <;> rfl
  | acquire free => exact Nat.sub_add_cancel hp
  | wake asleep => simp
  | _ => rfl

/-- Who takes the lock tests it first. -/
theorem apart (h : Turn l p p' l' woken) (hl : l.writer = true → l.readers = 0) :
    l'.writer = true → l'.readers = 0 := by
  cases h with
  | share comes free =>
    intro hwriter
    exact absurd hwriter (Bool.eq_false_iff.mp (SharedLock.blocksReader_eq_false.mp free).1)
  | write free => exact fun _ => (SharedLock.blocksWriter_eq_false.mp free).2
  | acquire free => exact fun _ => (SharedLock.blocksWriter_eq_false.mp free).2
  | endSharing others =>
    intro hwriter
    show l.readers - 1 = 0
    rw [hl hwriter]
  | endLast last => exact fun _ => last
  | endWriting => exact nofun
  | _ => exact hl

end Turn

theorem counted_start : Counted {} where
  sharing := by simp [Counts, phase]
  writing := by simp [Counts, phase]
  announced := by simp [Counts, phase, LockPhase.isAnnounced]
  apart := nofun

/-- **A step keeps the counts right.** -/
theorem counted_step (h : Counted s) (hstep : Step s s') : Counted s' := by
  obtain ⟨t, woken, hmoves⟩ := hstep.moves
  refine ⟨?_, ?_, ?_, hmoves.turn.apart h.apart⟩
  · exact h.sharing.moves hmoves (by simp) hmoves.turn.readers
  · exact h.writing.moves hmoves (by simp) hmoves.turn.writer
  · exact h.announced.moves hmoves (by simp) hmoves.turn.writersWaiting

/-- **The counts are right in every reachable state.** -/
theorem counted_reachable (h : Reachable s) : Counted s := by
  induction h with
  | refl => exact counted_start
  | tail _ hstep ih => exact counted_step ih hstep

/-! ## Safety -/

theorem Counts.eq_zero_iff {q : LockPhase → Bool} {n : Nat} (h : s.Counts q n) :
    n = 0 ↔ ∀ t, q (s.phase t) = false := by
  rw [← ENat.natCast_inj, ← h, Nat.cast_zero, Set.encard_eq_zero, Set.eq_empty_iff_forall_notMem]
  simp

theorem counts_one_iff {q : LockPhase → Bool} : s.Counts q 1 ↔ ∃! t, q (s.phase t) = true := by
  unfold Counts
  rw [Nat.cast_one, Set.encard_eq_one, Set.singleton_iff_unique_mem]
  rfl

namespace Counted

/-- The flag is set exactly while one thread writes. -/
theorem writer_iff (h : Counted s) : s.lock.writer = true ↔ ∃! t, s.phase t = .writing := by
  have hwriting := h.writing
  cases hwriter : s.lock.writer with
  | true =>
    rw [hwriter] at hwriting
    simpa using counts_one_iff.mp hwriting
  | false =>
    rw [hwriter] at hwriting
    refine iff_of_false Bool.false_ne_true ?_
    rintro ⟨t, ht, -⟩
    have hnone := hwriting.eq_zero_iff.mp rfl t
    exact of_decide_eq_false hnone ht

/-- While the flag is not set, no thread writes. -/
theorem not_writing (h : Counted s) (hwriter : s.lock.writer = false) (t : Text) :
    s.phase t ≠ .writing :=
  of_decide_eq_false (h.writing.eq_zero_iff.mp (by rw [hwriter]; rfl) t)

/-- No two threads write. -/
theorem alone (h : Counted s) {t u : Text} (ht : s.phase t = .writing) (hu : s.phase u = .writing) :
    t = u := by
  have hwriter : s.lock.writer = true := by
    by_contra hoff
    exact h.not_writing (Bool.eq_false_iff.mpr hoff) t ht
  exact (h.writer_iff.mp hwriter).unique ht hu

end Counted

/-- Who begins to share has found no writer, neither one that holds the lock nor one that waits. -/
theorem Turn.of_shares {l l' : SharedLock} {p p' : LockPhase} (h : Turn l p p' l' woken)
    (hp : p ≠ .sharing) (hp' : p' = .sharing) : l.blocksReader = false := by
  cases h with
  | share comes free => exact free
  | wake asleep => exact absurd (LockPhase.awake_eq_sharing.mp hp') hp
  | _ => cases hp'

/-- A thread that begins to share does so in its own turn. -/
theorem Moves.shares {u : Text} (h : Moves s s' t woken) (hu : s.phase u ≠ .sharing)
    (hu' : s'.phase u = .sharing) : s.lock.blocksReader = false := by
  by_cases hut : u = t
  · subst hut
    exact h.turn.of_shares hu hu'
  · rw [h.others u hut] at hu'
    cases woken with
    | true => exact absurd (LockPhase.awake_eq_sharing.mp hu') hu
    | false => exact absurd hu' hu

/-- The lock is safe. -/
structure Safe (s : LockState) : Prop where
  /-- the flag is set exactly while one thread is inside as a writer -/
  writer : s.lock.writer = true ↔ ∃! t, s.phase t = .writing
  /-- and there are never two -/
  alone : ∀ t u, s.phase t = .writing → s.phase u = .writing → t = u
  /-- the readers that are counted are those inside -/
  readers : s.Counts (· = .sharing) s.lock.readers
  /-- readers and a writer are not inside together -/
  apart : ¬ (s.lock.writer = true ∧ s.lock.readers ≠ 0)
  /-- the waiting writers that are counted have come and do not write yet -/
  writersWaiting : s.Counts LockPhase.isAnnounced s.lock.writersWaiting
  /-- no thread begins to share while a writer is inside or waits -/
  priority : ∀ s' t, Step s s' → s.phase t ≠ .sharing → s'.phase t = .sharing →
    ∀ u, s.phase u ≠ .writing ∧ (s.phase u).isAnnounced = false

/-- **The lock is safe in every reachable state.** -/
theorem safe_of_reachable (h : Reachable s) : Safe s := by
  have hcounted := counted_reachable h
  refine ⟨hcounted.writer_iff, fun t u => hcounted.alone, hcounted.sharing, ?_, hcounted.announced, ?_⟩
  · rintro ⟨hwriter, hreaders⟩
    exact hreaders (hcounted.apart hwriter)
  · intro s' t hstep ht ht' u
    obtain ⟨v, woken, hmoves⟩ := hstep.moves
    obtain ⟨hwriter, hwaiting⟩ := SharedLock.blocksReader_eq_false.mp (hmoves.shares ht ht')
    exact ⟨hcounted.not_writing hwriter u, hcounted.announced.eq_zero_iff.mp hwaiting u⟩

/-- A reader is inside, a writer waits for it, and another reader waits for the writer. -/
def crowded : LockState :=
  ((({} : LockState).enterShared "reader").enterExclusive "writer").enterShared "latecomer"

theorem reachable_crowded : Reachable crowded :=
  ((Relation.ReflTransGen.refl.tail (.enterShared "reader" (by decide))).tail
    (.enterExclusive "writer" (by decide))).tail (.enterShared "latecomer" (by decide))

/-- One thread shares, one waits to write, and as long as it waits no other begins to share. -/
theorem safe_of_reachable_crowded :
    Reachable crowded ∧ crowded.lock = { readers := 1, writer := false, writersWaiting := 1 } ∧
      crowded.Counts (· = .sharing) 1 ∧ crowded.Counts LockPhase.isAnnounced 1 ∧
      ∀ s', Step crowded s' → s'.phase "latecomer" ≠ .sharing := by
  have hsafe := safe_of_reachable reachable_crowded
  refine ⟨reachable_crowded, by decide, hsafe.readers, hsafe.writersWaiting, fun s' hstep hshares => ?_⟩
  have hnone := hsafe.priority s' "latecomer" hstep (by decide) hshares "writer"
  exact absurd hnone.2 (by decide)

end LockState

end CakeMonitor
