import CakeMonitor.Text.CodePoint
/-!
# A lock for readers and a writer

Model of `SharedLock`. Any number of readers may hold the lock, or one writer alone; a writer that waits keeps
new readers out. A thread that cannot have the lock falls asleep until a release wakes it, and then tests again.
Each test with what follows from it is one step, since it is made under the mutex of the condition variable.

* `SharedLock`: the counts that the tests look at.
* `LockState`: the counts with what every thread is doing, and the steps of a thread: `enterShared`,
  `enterExclusive`, `wake`, `retry`, `leave`.
* `LockState.settle`: all threads that are awake test again, writers first.
-/

namespace CakeMonitor

/-- The counts by which a thread decides whether it may have the lock. -/
structure SharedLock where
  readers : Nat := 0
  writer : Bool := false
  writersWaiting : Nat := 0
  deriving DecidableEq

namespace SharedLock

/-- Whether a reader must wait. -/
def blocksReader (l : SharedLock) : Bool := l.writer || l.writersWaiting ≠ 0

/-- Whether a writer must wait. -/
def blocksWriter (l : SharedLock) : Bool := l.writer || l.readers ≠ 0

/-- A reader more. -/
def addReader (l : SharedLock) : SharedLock := { l with readers := l.readers + 1 }

/-- A writer announces itself. -/
def announceWriter (l : SharedLock) : SharedLock :=
  { l with writersWaiting := l.writersWaiting + 1 }

/-- An announced writer takes the lock. -/
def setWriter (l : SharedLock) : SharedLock :=
  { l with writersWaiting := l.writersWaiting - 1, writer := true }

/-- A reader less. -/
def removeReader (l : SharedLock) : SharedLock := { l with readers := l.readers - 1 }

/-- The writer is gone. -/
def clearWriter (l : SharedLock) : SharedLock := { l with writer := false }

end SharedLock

/-- What a thread is doing with the lock. -/
inductive LockPhase where
  | outside
  | waitingShared (asleep : Bool)
  | waitingExclusive (asleep : Bool)
  | sharing
  | writing
  deriving DecidableEq

namespace LockPhase

/-- Whether the thread holds the lock. -/
def holds : LockPhase → Bool
  | sharing | writing => true
  | _ => false

/-- Whether the thread waits for the lock. -/
def waits : LockPhase → Bool
  | waitingShared _ | waitingExclusive _ => true
  | _ => false

/-- What a thread does after it was woken. -/
def awake : LockPhase → LockPhase
  | waitingShared _ => waitingShared false
  | waitingExclusive _ => waitingExclusive false
  | p => p

end LockPhase

/-- A lock with its threads. -/
structure LockState where
  lock : SharedLock := {}
  threads : List (Text × LockPhase) := []
  deriving DecidableEq

namespace LockState

/-- What a thread is doing. -/
def phase (s : LockState) (t : Text) : LockPhase :=
  ((s.threads.find? fun x => x.1 = t).map (·.2)).getD .outside

/-- The threads with one of them in another phase. -/
def setPhase (t : Text) (p : LockPhase) : List (Text × LockPhase) → List (Text × LockPhase)
  | [] => [(t, p)]
  | x :: xs => if x.1 = t then (t, p) :: xs else x :: setPhase t p xs

/-- A thread goes on to another phase. -/
def go (s : LockState) (t : Text) (p : LockPhase) (lock : SharedLock) : LockState :=
  { lock, threads := setPhase t p s.threads }

theorem find?_setPhase (t u : Text) (p : LockPhase) (ts : List (Text × LockPhase)) :
    ((setPhase t p ts).find? fun x => x.1 = u)
      = if t = u then some (t, p) else ts.find? fun x => x.1 = u := by
  induction ts with
  | nil => by_cases h : t = u <;> simp [setPhase, h]
  | cons x xs ih =>
    by_cases hx : x.1 = t
    · by_cases h : t = u <;> simp [setPhase, hx, h]
    · by_cases h : t = u
      · subst h; simp [setPhase, hx, ih]
      · simp [setPhase, hx, h, ih, List.find?_cons]

theorem phase_go (s : LockState) (t u : Text) (p : LockPhase) (l : SharedLock) :
    (s.go t p l).phase u = if t = u then p else s.phase u := by
  by_cases h : t = u <;> simp [phase, go, find?_setPhase, h]

/-- A thread tests whether it may read, and falls asleep if not. -/
def testShared (s : LockState) (t : Text) : LockState :=
  if s.lock.blocksReader then s.go t (.waitingShared true) s.lock
  else s.go t .sharing s.lock.addReader

/-- An announced writer tests whether it may write, and falls asleep if not. -/
def testExclusive (s : LockState) (t : Text) : LockState :=
  if s.lock.blocksWriter then s.go t (.waitingExclusive true) s.lock
  else s.go t .writing s.lock.setWriter

/-- A thread comes to read. -/
def enterShared (s : LockState) (t : Text) : LockState := s.testShared t

/-- A thread comes to write. -/
def enterExclusive (s : LockState) (t : Text) : LockState :=
  { s with lock := s.lock.announceWriter }.testExclusive t

/-- A thread wakes up. -/
def wake (s : LockState) (t : Text) : LockState := s.go t (s.phase t).awake s.lock

/-- All threads wake up. -/
def wakeAll (s : LockState) : LockState :=
  { s with threads := s.threads.map fun x => (x.1, x.2.awake) }

/-- A thread that is awake tests again. -/
def retry (s : LockState) (t : Text) : LockState :=
  match s.phase t with
  | .waitingShared false => s.testShared t
  | .waitingExclusive false => s.testExclusive t
  | _ => s

/-- A thread gives the lock back. The last reader and the writer wake all that wait. -/
def leave (s : LockState) (t : Text) : LockState :=
  match s.phase t with
  | .sharing =>
    let s := s.go t .outside s.lock.removeReader
    if s.lock.readers = 0 then s.wakeAll else s
  | .writing => (s.go t .outside s.lock.clearWriter).wakeAll
  | _ => s

/-- The threads in a phase, in the order in which they came. -/
def inPhase (s : LockState) (p : LockPhase → Bool) : List Text :=
  (s.threads.filter fun x => p x.2).map (·.1)

/-- Every thread that is awake tests again, writers first. -/
def settle (s : LockState) : LockState :=
  let s := (s.inPhase (· = .waitingExclusive false)).foldl retry s
  (s.inPhase (· = .waitingShared false)).foldl retry s

/-- The threads that hold the lock. -/
def holders (s : LockState) : List Text := s.inPhase LockPhase.holds

/-- The threads that wait for it. -/
def waiters (s : LockState) : List Text := s.inPhase LockPhase.waits

end LockState

end CakeMonitor
