/-!
# Ring buffers

Model of `RingBuffer`. A buffer of fixed size in which a new item overwrites the oldest once all slots are
taken.

* `Ring.push` (`push`): write into the next slot; `Ring.push?` refuses when there is no slot at all.
* `Ring.toList` (`ordered`): the items, oldest first.
-/

namespace CakeMonitor

/-- A buffer of `slots.length` slots. -/
structure Ring (α : Type) where
  slots : List (Option α)
  /-- the slot written next -/
  head : Nat := 0
  /-- how many slots hold an item -/
  count : Nat := 0
  deriving DecidableEq

namespace Ring

variable {α : Type}

/-- An empty ring; a negative capacity is none. Memory is taken as unbounded: any number of slots can be had,
where a machine refuses from `2 ^ 63` on, and from what it has left before that. -/
def empty (capacity : Int) : Ring α := { slots := List.replicate capacity.toNat none }

/-- The number of slots. -/
def capacity (r : Ring α) : Nat := r.slots.length

@[simp] theorem capacity_empty (n : Int) : (empty n : Ring α).capacity = n.toNat := by
  simp [empty, capacity]

/-- Write an item into the next slot. -/
def push (r : Ring α) (a : α) : Ring α where
  slots := r.slots.set r.head (some a)
  head := (r.head + 1) % r.capacity
  count := if r.count < r.capacity then r.count + 1 else r.count

@[simp] theorem capacity_push (r : Ring α) (a : α) : (r.push a).capacity = r.capacity := by
  simp [push, capacity]

/-- Write an item, if there is a slot to write to. -/
def push? (r : Ring α) (a : α) : Option (Ring α) :=
  if r.head < r.capacity then some (r.push a) else none

/-- The items, oldest first: from the beginning while slots are free, else from the next slot on. -/
def toList (r : Ring α) : List α :=
  let window :=
    if r.count < r.capacity then r.slots.take r.count
    else r.slots.drop r.head ++ r.slots.take r.head
  window.filterMap id

@[simp] theorem toList_empty (n : Int) : (empty n : Ring α).toList = [] := by
  simp [empty, toList, capacity]

end Ring

end CakeMonitor
