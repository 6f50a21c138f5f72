import CakeMonitor.Proofs.History.LockSteps
import CakeMonitor.Proofs.History.RecordSteps

/-!
# Readers of the history see whole polls

One thread records polls, each write a step of its own, and any number of threads copy the series of one
interface after another. A recording holds the lock exclusively from its first write to its last, and a
reader shares it from the first interface to the last, so no reader sees a store in the middle of a poll.

A recording that an error breaks off is over like any other: what it wrote stays. Where none is broken
off, the copies are those of whole polls.

* `SharedStore`: the lock, the store, the recording under way, and the readers.
* `SharedStore.Step`, `SharedStore.Reachable`: the steps of all threads, and the states they lead to.
* `LockState.Moves.phase_of_holds`: who holds the lock is not disturbed by the others.
* `SharedStore.Consistent`: the invariant; `consistent_reachable`.
* `SharedStore.copies_whole`: every copy is the series after some of the recordings.
* `SharedStore.copies_of_polls`: the series after some polls, if none of the recordings was broken off.
-/

namespace CakeMonitor

/-! ## Interface by interface -/

/-- What a reader takes of an interface, if there are samples of it. -/
def Track.copy? (t : Text × Track) : Option (Text × List Sample) :=
  if t.2.samples.count ≠ 0 then some (t.1, t.2.samples.toList) else none

/-- The series are what a reader takes of all interfaces. -/
theorem Store.series_eq (s : Store) : s.series = s.tracks.filterMap Track.copy? := by
  unfold Store.series
  rw [← List.filterMap_eq_map, List.filterMap_filter]
  refine List.filterMap_congr fun t _ => ?_
  by_cases h : t.2.samples.count = 0 <;> simp [Track.copy?, h]

/-- How far a reader has come. -/
structure Reading where
  /-- how many recordings were over when it began -/
  begun : Nat := 0
  /-- the interface that it takes next, counted from the oldest -/
  next : Nat := 0
  copied : List (Text × List Sample) := []

/-- What a reader has brought back. -/
structure Copy where
  /-- how many recordings were over when the reader began -/
  begun : Nat
  series : List (Text × List Sample)
  deriving DecidableEq

/-- A store with one thread that records and others that read. -/
structure SharedStore where
  lock : LockState := {}
  store : Store
  /-- the recordings that are over, oldest first -/
  ended : List Attempt := []
  /-- the recording under way, from the moment it asks for the lock -/
  current : Option (Attempt × Stage) := none
  reading : Text → Reading := fun _ => {}
  /-- all that readers have brought back, oldest first -/
  copies : List Copy := []

namespace SharedStore

/-! ## Steps -/

/-- A new store, with nobody at its lock. -/
def start (capacity : Int) : SharedStore := { store := Store.empty capacity }

/-- The writer comes with a poll to record. -/
def come (s : SharedStore) (writer : Text) (a : Attempt) : SharedStore :=
  { s with lock := s.lock.enterExclusive writer, current := some (a, .observing a.stats) }

/-- The next write of the recording under way. -/
def write (s : SharedStore) : SharedStore :=
  match s.current with
  | none => s
  | some (a, stage) =>
    let r := Recording.step a ⟨s.store, stage⟩
    { s with store := r.store, current := some (a, r.stage) }

/-- The recording under way has nothing left to write. -/
def hasEnded (s : SharedStore) : Bool := s.current.map (·.2) = some .ended

/-- The writer leaves behind a recording that is over. -/
def leave (s : SharedStore) (writer : Text) : SharedStore :=
  { s with lock := s.lock.leave writer, current := none
           ended := s.ended ++ (s.current.map (·.1)).toList }

/-- The store with a reader that has come so far. -/
def setReading (s : SharedStore) (t : Text) (r : Reading) : SharedStore :=
  { s with reading := fun u => if u = t then r else s.reading u }

/-- A reader comes. -/
def ask (s : SharedStore) (t : Text) : SharedStore :=
  { s with lock := s.lock.enterShared t }.setReading t { begun := s.ended.length }

/-- A reader takes the next interface. -/
def copy (s : SharedStore) (t : Text) : SharedStore :=
  let r := s.reading t
  s.setReading t { r with next := r.next + 1
                          copied := r.copied ++ (s.store.tracks[r.next]?.bind Track.copy?).toList }

/-- A reader leaves with what it has taken. -/
def answer (s : SharedStore) (t : Text) : SharedStore :=
  { s.setReading t {} with
    lock := s.lock.leave t
    copies := s.copies ++ [{ begun := (s.reading t).begun, series := (s.reading t).copied }] }

/-- A thread is woken at the lock. -/
def wake (s : SharedStore) (t : Text) : SharedStore := { s with lock := s.lock.wake t }

/-- A thread that was woken tests again. -/
def retry (s : SharedStore) (t : Text) : SharedStore := { s with lock := s.lock.retry t }

/-- One step of one thread. Only the writer writes, and who waits at the lock waits. -/
inductive Step (writer : Text) (s : SharedStore) : SharedStore → Prop
  | come (a : Attempt) (outside : s.lock.phase writer = .outside) : Step writer s (s.come writer a)
  | write (writing : s.lock.phase writer = .writing) : Step writer s s.write
  | leave (writing : s.lock.phase writer = .writing) (ended : s.hasEnded = true) :
      Step writer s (s.leave writer)
  | ask (t : Text) (outside : s.lock.phase t = .outside) : Step writer s (s.ask t)
  | copy (t : Text) (sharing : s.lock.phase t = .sharing)
      (left : (s.reading t).next < s.store.tracks.length) : Step writer s (s.copy t)
  | answer (t : Text) (sharing : s.lock.phase t = .sharing)
      (all : s.store.tracks.length ≤ (s.reading t).next) : Step writer s (s.answer t)
  | wake (t : Text) (asleep : (s.lock.phase t).isAsleep = true) : Step writer s (s.wake t)
  | retry (t : Text) (woken : (s.lock.phase t).isWoken = true) : Step writer s (s.retry t)

/-- What the writer and any readers can make of a new store. -/
def Reachable (writer : Text) (capacity : Int) (s : SharedStore) : Prop :=
  Relation.ReflTransGen (Step writer) (start capacity) s

variable {writer : Text} {s s' : SharedStore} {t u : Text}

theorem reading_setReading (s : SharedStore) (t u : Text) (r : Reading) :
    (s.setReading t r).reading u = if u = t then r else s.reading u := rfl

/-- A step is one of the lock, or it does not touch the lock. -/
theorem Step.lock (h : Step writer s s') : s'.lock = s.lock ∨ LockState.Step s.lock s'.lock := by
  cases h with
  | come a outside => exact Or.inr (.enterExclusive writer outside)
  | write writing =>
    refine Or.inl ?_
    unfold SharedStore.write
    split <;> rfl
  | leave writing ended => exact Or.inr (.leave writer (by rw [writing]; rfl))
  | ask t outside => exact Or.inr (.enterShared t outside)
  | copy t sharing left => exact Or.inl rfl
  | answer t sharing all => exact Or.inr (.leave t (by rw [sharing]; rfl))
  | wake t asleep => exact Or.inr (.wake t asleep)
  | retry t woken => exact Or.inr (.retry t woken)

end SharedStore

/-! ## Who holds the lock -/

namespace LockPhase

variable {p : LockPhase}

theorem awake_of_holds (h : p.holds = true) : p.awake = p := by cases p <;> first | rfl | cases h

theorem not_holds_of_isAsleep (h : p.isAsleep = true) : p.holds = false := by
  cases p <;> first | rfl | cases h

theorem not_holds_of_isWoken (h : p.isWoken = true) : p.holds = false := by
  cases p <;> first | rfl | cases h

end LockPhase

namespace LockState

variable {s s' : LockState} {t u : Text} {woken : Bool}

/-- **Who holds the lock is not disturbed** by the turn of another thread. -/
theorem Moves.phase_of_holds (h : Moves s s' t woken) (hut : u ≠ t) (hu : (s.phase u).holds = true) :
    s'.phase u = s.phase u := by
  rw [h.others u hut]
  cases woken with
  | true => exact LockPhase.awake_of_holds hu
  | false => rfl

/-- The turn of a thread that does not hold the lock leaves those that do. -/
theorem Moves.phase_of_not_holds (h : Moves s s' t woken) (ht : (s.phase t).holds = false)
    (hu : (s.phase u).holds = true) : s'.phase u = s.phase u := by
  refine h.phase_of_holds ?_ hu
  rintro rfl
  rw [ht] at hu
  cases hu

/-- While one thread writes, none shares. -/
theorem Counted.not_sharing (h : Counted s) (hwriting : s.phase t = .writing) (u : Text) :
    s.phase u ≠ .sharing := by
  have hwriter : s.lock.writer = true := by
    by_contra hoff
    exact h.not_writing (Bool.eq_false_iff.mpr hoff) t hwriting
  have hnone := h.sharing.eq_zero_iff.mp (h.apart hwriter) u
  exact of_decide_eq_false hnone

end LockState

namespace SharedStore

/-! ## The invariant -/

/-- The copy is the series after some of the recordings, and after those that were over when the reader
began. -/
def Whole (capacity : Int) (ended : List Attempt) (c : Copy) : Prop :=
  ∃ n, c.begun ≤ n ∧ n ≤ ended.length ∧
    c.series = ((Store.empty capacity).after (ended.take n)).series

/-- The store stands between two recordings, or in the one under way; readers are in step with it. -/
structure Consistent (writer : Text) (capacity : Int) (s : SharedStore) : Prop where
  lock : s.lock.Reachable
  /-- while nobody writes, the store is that of the recordings that are over -/
  settled : s.lock.phase writer ≠ .writing → s.store = (Store.empty capacity).after s.ended
  /-- the recording under way leads where it would lead if it were made at once -/
  current : ∀ a stage, s.current = some (a, stage) →
    Recording.finish a ⟨s.store, stage⟩ = (Store.empty capacity).after (s.ended ++ [a])
  /-- only a reader that shares the lock has taken anything -/
  idle : ∀ t, s.lock.phase t ≠ .sharing → (s.reading t).next = 0
  /-- what it has taken are the first interfaces of the store as it is -/
  reading : ∀ t, (s.reading t).copied
    = (s.store.tracks.take (s.reading t).next).filterMap Track.copy?
  begun : ∀ t, (s.reading t).begun ≤ s.ended.length
  copies : ∀ c ∈ s.copies, Whole capacity s.ended c

variable {capacity : Int}

theorem Whole.append {ended : List Attempt} {c : Copy} (h : Whole capacity ended c) (more : List Attempt) :
    Whole capacity (ended ++ more) c := by
  obtain ⟨n, hbegun, hn, hseries⟩ := h
  refine ⟨n, hbegun, ?_, ?_⟩
  · rw [List.length_append]
    exact Nat.le_add_right_of_le hn
  · rw [List.take_append_of_le_length hn]
    exact hseries

namespace Consistent

variable (h : Consistent writer capacity s)

include h

/-- While a reader shares the lock, the store is that of the recordings that are over. -/
theorem store_of_sharing (ht : s.lock.phase t = .sharing) :
    s.store = (Store.empty capacity).after s.ended := by
  refine h.settled fun hwriting => ?_
  exact (LockState.counted_reachable h.lock).not_sharing hwriting t ht

/-- While the writer writes, no reader has taken anything. -/
theorem next_of_writing (hwriting : s.lock.phase writer = .writing) (t : Text) :
    (s.reading t).next = 0 :=
  h.idle t ((LockState.counted_reachable h.lock).not_sharing hwriting t)

/-- **A thread that comes or waits changes nothing** but the lock. -/
theorem of_moves {l : LockState} {woken : Bool} (hstep : LockState.Step s.lock l)
    (hmoves : LockState.Moves s.lock l t woken) (ht : (s.lock.phase t).holds = false) :
    Consistent writer capacity { s with lock := l } where
  lock := h.lock.tail hstep
  settled hwriter := by
    refine h.settled fun hwriting => hwriter ?_
    rw [hmoves.phase_of_not_holds ht (by rw [hwriting]; rfl)]
    exact hwriting
  current := h.current
  idle u hu := by
    refine h.idle u fun hsharing => hu ?_
    rw [hmoves.phase_of_not_holds ht (by rw [hsharing]; rfl)]
    exact hsharing
  reading := h.reading
  begun := h.begun
  copies := h.copies

/-- A reader that shares the lock, or has taken nothing, may come so far. -/
theorem setReading {r : Reading} (hidle : s.lock.phase t ≠ .sharing → r.next = 0)
    (hcopied : r.copied = (s.store.tracks.take r.next).filterMap Track.copy?)
    (hbegun : r.begun ≤ s.ended.length) : Consistent writer capacity (s.setReading t r) where
  lock := h.lock
  settled := h.settled
  current := h.current
  idle u hu := by
    rw [reading_setReading]
    split
    · rename_i heq
      exact hidle (heq ▸ hu)
    · exact h.idle u hu
  reading u := by
    rw [reading_setReading]
    split
    · exact hcopied
    · exact h.reading u
  begun u := by
    rw [reading_setReading]
    split
    · exact hbegun
    · exact h.begun u
  copies := h.copies

theorem come (a : Attempt) (outside : s.lock.phase writer = .outside) :
    Consistent writer capacity (s.come writer a) := by
  have hmoved := h.of_moves (.enterExclusive writer outside) (LockState.moves_enterExclusive outside)
    (by rw [outside]; rfl)
  have hstore := h.settled (by rw [outside]; nofun)
  refine { hmoved with current := ?_ }
  rintro b stage hb
  obtain ⟨rfl, rfl⟩ := Prod.mk.inj (Option.some.inj hb)
  show Recording.finish a (.begin s.store a) = (Store.empty capacity).after (s.ended ++ [a])
  rw [Recording.finish_begin, Store.after_concat, hstore]

theorem write (writing : s.lock.phase writer = .writing) : Consistent writer capacity s.write := by
  unfold SharedStore.write
  split
  · exact h
  · rename_i a stage hcurrent
    refine { lock := h.lock, settled := fun hnot => absurd writing hnot, current := ?_, idle := h.idle
             reading := fun t => ?_, begun := h.begun, copies := h.copies }
    · rintro b stage' hb
      obtain ⟨rfl, rfl⟩ := Prod.mk.inj (Option.some.inj hb)
      exact (Recording.finish_step a ⟨s.store, stage⟩).trans (h.current a stage hcurrent)
    · have hnext := h.next_of_writing writing t
      have hcopied := h.reading t
      rw [hnext] at hcopied
      show (s.reading t).copied = List.filterMap _ (List.take (s.reading t).next _)
      rw [hnext, hcopied]
      rfl

theorem leave (writing : s.lock.phase writer = .writing) (ended : s.hasEnded = true) :
    Consistent writer capacity (s.leave writer) := by
  have hended : s.current.map (·.2) = some .ended := of_decide_eq_true ended
  obtain ⟨⟨a, stage⟩, hcurrent, hstage⟩ := Option.map_eq_some_iff.mp hended
  obtain rfl : stage = .ended := hstage
  have hafter : s.ended ++ (s.current.map (·.1)).toList = s.ended ++ [a] := by rw [hcurrent]; rfl
  have hstore : s.store = (Store.empty capacity).after (s.ended ++ [a]) := h.current a .ended hcurrent
  unfold SharedStore.leave
  rw [hafter]
  exact
    { lock := h.lock.tail (.leave writer (by rw [writing]; rfl))
      settled := fun _ => hstore
      current := fun _ _ hnone => (Option.some_ne_none _ hnone.symm).elim
      idle := fun t _ => h.next_of_writing writing t
      reading := h.reading
      begun := fun t => by
        rw [List.length_append]
        exact Nat.le_add_right_of_le (h.begun t)
      copies := fun c hc => (h.copies c hc).append [a] }

theorem ask (outside : s.lock.phase t = .outside) : Consistent writer capacity (s.ask t) := by
  have hmoved := h.of_moves (.enterShared t outside) (LockState.moves_testShared (Or.inl outside))
    (by rw [outside]; rfl)
  refine hmoved.setReading (r := { begun := s.ended.length }) (fun _ => rfl) ?_ (Nat.le_refl _)
  rw [List.take_zero]
  rfl

theorem copy (sharing : s.lock.phase t = .sharing) : Consistent writer capacity (s.copy t) := by
  refine h.setReading (fun hnot => absurd sharing hnot) ?_ (h.begun t)
  dsimp only
  rw [List.take_add_one, List.filterMap_append, ← h.reading t]
  congr 1
  cases s.store.tracks[(s.reading t).next]? with
  | none => rfl
  | some track =>
    show (Track.copy? track).toList = List.filterMap Track.copy? [track]
    cases hcopy : Track.copy? track with
    | none => rw [List.filterMap_cons_none hcopy]; rfl
    | some c => rw [List.filterMap_cons_some hcopy]; rfl

theorem answer (sharing : s.lock.phase t = .sharing)
    (all : s.store.tracks.length ≤ (s.reading t).next) : Consistent writer capacity (s.answer t) := by
  have hholds : (s.lock.phase t).holds = true := by rw [sharing]; rfl
  obtain ⟨woken, hmoves⟩ := LockState.moves_leave hholds
  have hstore := h.store_of_sharing sharing
  have hseries : (s.reading t).copied = s.store.series := by
    rw [h.reading t, List.take_of_length_le all, Store.series_eq]
  have hreset := h.setReading (t := t) (r := {}) (fun _ => rfl) rfl (Nat.zero_le _)
  exact
    { lock := h.lock.tail (.leave t hholds)
      settled := fun _ => hstore
      current := h.current
      idle := fun u hu => by
        by_cases hut : u = t
        · exact congrArg Reading.next (if_pos hut)
        · refine hreset.idle u fun hsharing => hu ?_
          replace hsharing : s.lock.phase u = .sharing := hsharing
          exact (hmoves.phase_of_holds hut (by rw [hsharing]; rfl)).trans hsharing
      reading := hreset.reading
      begun := hreset.begun
      copies := fun c hc => by
        rcases List.mem_append.mp hc with hearlier | hnew
        · exact h.copies c hearlier
        · obtain rfl := List.mem_singleton.mp hnew
          refine ⟨s.ended.length, h.begun t, le_rfl, ?_⟩
          show (s.reading t).copied = ((Store.empty capacity).after (s.ended.take s.ended.length)).series
          rw [List.take_length, ← hstore]
          exact hseries }

end Consistent

/-- **A step keeps store and readers consistent.** -/
theorem consistent_step (h : Consistent writer capacity s) (hstep : Step writer s s') :
    Consistent writer capacity s' := by
  cases hstep with
  | come a outside => exact h.come a outside
  | write writing => exact h.write writing
  | leave writing ended => exact h.leave writing ended
  | ask t outside => exact h.ask outside
  | copy t sharing left => exact h.copy sharing
  | answer t sharing all => exact h.answer sharing all
  | wake t asleep =>
    exact h.of_moves (.wake t asleep) (LockState.moves_go (.wake asleep))
      (LockPhase.not_holds_of_isAsleep asleep)
  | retry t woken =>
    exact h.of_moves (.retry t woken) (LockState.moves_retry woken) (LockPhase.not_holds_of_isWoken woken)

theorem consistent_start (writer : Text) (capacity : Int) :
    Consistent writer capacity (start capacity) where
  lock := .refl
  settled _ := rfl
  current _ _ hnone := (Option.some_ne_none _ hnone.symm).elim
  idle _ _ := rfl
  reading _ := rfl
  begun _ := le_rfl
  copies := nofun

/-- **Store and readers are consistent in every reachable state.** -/
theorem consistent_reachable (h : Reachable writer capacity s) : Consistent writer capacity s := by
  induction h with
  | refl => exact consistent_start writer capacity
  | tail _ hstep ih => exact consistent_step ih hstep

/-- **Readers see whole polls only**: every copy is the series after some of the recordings, and after
those that were over when the reader began. -/
theorem copies_whole (h : Reachable writer capacity s) : ∀ c ∈ s.copies, ∃ n,
    c.begun ≤ n ∧ n ≤ s.ended.length ∧
      c.series = ((Store.empty capacity).after (s.ended.take n)).series :=
  (consistent_reachable h).copies

/-- **Where no recording was broken off, readers see polls only**: every copy is the series behind the
oldest of the polls that were recorded, and behind all those from before the reader began. -/
theorem copies_of_polls (h : Reachable writer capacity s) (fine : (Store.empty capacity).NoneFails s.ended)
    (distinct : ∀ a ∈ s.ended, a.names.Nodup) : ∀ c ∈ s.copies, ∃ polls store,
      polls <:+ (Store.empty capacity).recordedPolls s.ended ∧ c.begun ≤ polls.length ∧
        Recorded capacity polls store ∧ c.series = store.series := by
  intro c hc
  obtain ⟨n, hbegun, hn, hseries⟩ := (consistent_reachable h).copies c hc
  have hfirst : (Store.empty capacity).NoneFails (s.ended.take n) := fine.initial (List.take_prefix n _)
  refine ⟨(Store.empty capacity).recordedPolls (s.ended.take n), _, ?_, ?_, ?_, hseries⟩
  · conv_rhs => rw [← List.take_append_drop n s.ended, Store.recordedPolls_append]
    exact List.suffix_append _ _
  · rwa [hfirst.length_recordedPolls, List.length_take, Nat.min_eq_left hn]
  · exact Store.recorded_after capacity _ hfirst.failOnlyAtOnce
      fun a ha => distinct a (List.mem_of_mem_take ha)

theorem lock_iterate_write (n : Nat) (s : SharedStore) : (write^[n] s).lock = s.lock := by
  induction n generalizing s with
  | zero => rfl
  | succ n ih =>
    rw [Function.iterate_succ_apply, ih]
    unfold write
    split <;> rfl

/-- The writer may write as often as it likes. -/
theorem Reachable.iterate_write (h : Reachable writer capacity s)
    (writing : s.lock.phase writer = .writing) (n : Nat) : Reachable writer capacity (write^[n] s) := by
  induction n with
  | zero => exact h
  | succ n ih =>
    rw [Function.iterate_succ_apply']
    exact ih.tail (.write (by rw [lock_iterate_write]; exact writing))

/-- A poll of one interface. -/
def onePoll (clock : Nat) (bytes : Int) : Attempt := ⟨.ofNat clock, .ofNat 1, [Recorded.oneInterface bytes]⟩

/-- A poll is recorded, and when another has begun a reader comes. -/
def besieged : SharedStore :=
  ((((write^[4] ((start 2).come "poller" (onePoll 10 100))).leave "poller").come "poller"
    (onePoll 12 300)).write).ask "reader"

/-- The reader was kept out until the second poll was recorded. -/
def relieved : SharedStore :=
  (((((write^[5] besieged).leave "poller").retry "reader").copy "reader").answer "reader")

/-- Two hundred bytes in two seconds. -/
def twoPolls : List (Text × List Sample) :=
  [("eth0", [{ time := 12, rates := { tx := .ofNat 100 } }])]

theorem reachable_besieged : Reachable "poller" 2 besieged := by
  have hcome : Reachable "poller" 2 ((start 2).come "poller" (onePoll 10 100)) :=
    Relation.ReflTransGen.refl.tail (.come (onePoll 10 100) (by decide))
  have hfirst := (hcome.iterate_write (by decide) 4).tail (.leave (by decide +kernel) (by decide +kernel))
  exact ((hfirst.tail (.come (onePoll 12 300) (by decide +kernel))).tail
    (.write (by decide +kernel))).tail (.ask "reader" (by decide +kernel))

theorem reachable_relieved : Reachable "poller" 2 relieved := by
  have hleave := (reachable_besieged.iterate_write (by decide +kernel) 5).tail
    (.leave (by decide +kernel) (by decide +kernel))
  have hcopy := (hleave.tail (.retry "reader" (by decide +kernel))).tail
    (.copy "reader" (by decide +kernel) (by decide +kernel))
  exact hcopy.tail (.answer "reader" (by decide +kernel) (by decide +kernel))

theorem copies_relieved : relieved.copies = [⟨1, twoPolls⟩] := by decide +kernel

theorem ended_relieved : relieved.ended = [onePoll 10 100, onePoll 12 300] := rfl

/-- The reader comes when one poll is recorded, and gets the series after two. -/
theorem copies_whole_relieved : Reachable "poller" 2 relieved ∧
    relieved.copies = [⟨1, twoPolls⟩] ∧ relieved.ended.length = 2 ∧
    ∃ n, 1 ≤ n ∧ n ≤ 2 ∧ twoPolls = ((Store.empty 2).after (relieved.ended.take n)).series := by
  have hlength : relieved.ended.length = 2 := congrArg List.length ended_relieved
  refine ⟨reachable_relieved, copies_relieved, hlength, ?_⟩
  have hwhole := copies_whole reachable_relieved ⟨1, twoPolls⟩
    (by rw [copies_relieved]; exact List.mem_singleton_self _)
  rw [hlength] at hwhole
  exact hwhole

/-- Neither recording was broken off, so these are polls. -/
theorem copies_of_polls_relieved : ∃ polls store, 1 ≤ polls.length ∧ Recorded 2 polls store ∧
    twoPolls = store.series := by
  have hfine : (Store.empty 2).NoneFails relieved.ended :=
    Store.noneFails_concat.mpr ⟨Store.noneFails_concat.mpr ⟨Store.noneFails_nil _, by decide +kernel⟩,
      by decide +kernel⟩
  have hdistinct : ∀ a ∈ relieved.ended, a.names.Nodup := by
    rw [ended_relieved]
    decide
  obtain ⟨polls, store, -, hbegun, hrecorded, hseries⟩ := copies_of_polls reachable_relieved hfine hdistinct
    ⟨1, twoPolls⟩ (by rw [copies_relieved]; exact List.mem_singleton_self _)
  exact ⟨polls, store, hbegun, hrecorded, hseries⟩

end SharedStore

end CakeMonitor
