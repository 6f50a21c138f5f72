import CakeMonitor.History.Ring
import Mathlib.Data.List.DropRight

/-!
# A ring holds the last items

Whatever was pushed into an empty ring, it holds the last items, as many as it has slots, and gives
them back in the order they came in.

* `Ring.Shape`: where the items of a window stand in the slots.
* `Ring.read`: the slots that are read for the items; none of them is empty.
* `Ring.shape_push`: a push moves the window on by one item.
* `Ring.shape_pushAll`: the window after any number of pushes.
* `Ring.toList_pushAll`, `Ring.count_pushAll`: what is read back, and how much.
-/

namespace CakeMonitor.Ring

variable {α : Type}

/-- How a window of items stands in the slots of a ring. While slots are free the items fill it from
the beginning; later the newer ones stand in front of the older ones. -/
inductive Shape : Ring α → List α → Prop
  | filling (window : List α) (free : Nat) :
      Shape ⟨window.map some ++ List.replicate (free + 1) none, window.length, window.length⟩ window
  | full (newer : List α) (oldest : α) (older : List α) :
      Shape ⟨newer.map some ++ (oldest :: older).map some, newer.length,
        newer.length + (older.length + 1)⟩ (oldest :: older ++ newer)

/-- The slots that are read for the items, oldest first. -/
def read (r : Ring α) : List (Option α) :=
  if r.count < r.capacity then r.slots.take r.count
  else r.slots.drop r.head ++ r.slots.take r.head

theorem toList_eq_read (r : Ring α) : r.toList = r.read.filterMap id := rfl

theorem shape_empty (free : Nat) : Shape (empty ((free + 1 : Nat) : Int) : Ring α) [] :=
  .filling [] free

namespace Shape

variable {r : Ring α} {window : List α}

theorem count_eq (h : Shape r window) : r.count = window.length := by
  cases h with
  | filling => rfl
  | full newer _ older =>
    show newer.length + (older.length + 1) = _
    rw [List.length_append, List.length_cons]
    omega

theorem length_le (h : Shape r window) : window.length ≤ r.capacity := by
  cases h with
  | filling window free => simp [capacity]
  | full newer oldest older =>
    simp only [capacity, List.length_append, List.length_map, List.length_cons]
    omega

/-- The next slot to write is one of the ring's. -/
theorem head_lt (h : Shape r window) : r.head < r.capacity := by
  cases h with
  | filling window free => simp [capacity]
  | full newer oldest older => simp [capacity]

/-- Only slots that hold an item are read. -/
theorem read_eq (h : Shape r window) : r.read = window.map some := by
  cases h with
  | filling window free =>
    have hfree : window.length < (window.map some ++ List.replicate (free + 1) none).length := by simp
    have htake : (window.map some ++ List.replicate (free + 1) none).take window.length
        = window.map some := List.take_left' (List.length_map _)
    rw [read, capacity, if_pos hfree, htake]
  | full newer oldest older =>
    have hfull : ¬ newer.length + (older.length + 1)
        < (newer.map some ++ (oldest :: older).map some).length := by simp
    have hdrop : (newer.map some ++ (oldest :: older).map some).drop newer.length
        = (oldest :: older).map some := List.drop_left' (List.length_map _)
    have htake : (newer.map some ++ (oldest :: older).map some).take newer.length
        = newer.map some := List.take_left' (List.length_map _)
    rw [read, capacity, if_neg hfull, hdrop, htake, List.map_append]

/-- **The window is read back in order.** -/
theorem toList_eq (h : Shape r window) : r.toList = window := by
  rw [toList_eq_read, h.read_eq, List.filterMap_map]
  exact List.filterMap_some

end Shape

/-- The slot behind some others is the one that is written. -/
theorem set_append_cons (xs ys : List (Option α)) (y a : Option α) :
    (xs ++ y :: ys).set xs.length a = xs ++ a :: ys := by
  rw [List.set_append_right _ _ (Nat.le_refl _), Nat.sub_self]
  rfl

/-- A list that is not longer is kept whole. -/
theorem rtake_of_length_le {l : List α} {n : Nat} (h : l.length ≤ n) : l.rtake n = l := by
  rw [List.rtake, Nat.sub_eq_zero_of_le h, List.drop_zero]

/-- **A push moves the window on**: the oldest item leaves it when all slots are taken. -/
theorem shape_push {r : Ring α} {window : List α} (h : Shape r window) (a : α) :
    Shape (r.push a) ((window ++ [a]).rtake r.capacity) := by
  cases h with
  | filling window free =>
    have hslots := set_append_cons (window.map some) (List.replicate free none) none (some a)
    rw [List.length_map, ← List.replicate_succ] at hslots
    have hwindow : (window ++ [a]).rtake
        (window.map some ++ List.replicate (free + 1) (none : Option α)).length = window ++ [a] :=
      rtake_of_length_le (by simp)
    rw [push, capacity, hwindow, hslots]
    cases free with
    | zero =>
      -- the last free slot is taken, so the next slot is the first one
      obtain ⟨o, rest, ho⟩ : ∃ o rest, window ++ [a] = o :: rest :=
        List.exists_cons_of_ne_nil (by simp)
      have hfull := Shape.full [] o rest
      rw [List.append_nil, ← ho] at hfull
      have hlength : window.length = rest.length := by simpa using congrArg List.length ho
      simpa [hlength] using hfull
    | succ free =>
      have hfilling := Shape.filling (window ++ [a]) free
      simpa [Nat.mod_eq_of_lt] using hfilling
  | full newer oldest older =>
    have hslots := set_append_cons (newer.map some) (older.map some) (some oldest) (some a)
    rw [List.length_map] at hslots
    have hwindow : (oldest :: older ++ newer ++ [a]).rtake
        (newer.map some ++ (oldest :: older).map some).length = older ++ newer ++ [a] := by
      have hdrop : (oldest :: older ++ newer ++ [a]).length
          - (newer.map some ++ (oldest :: older).map some).length = 1 := by
        simp only [List.length_append, List.length_map, List.length_cons, List.length_nil]
        omega
      rw [List.rtake, hdrop]
      rfl
    rw [push, capacity, hwindow, List.map_cons, hslots]
    cases older with
    | nil =>
      obtain ⟨o, rest, ho⟩ : ∃ o rest, newer ++ [a] = o :: rest :=
        List.exists_cons_of_ne_nil (by simp)
      have hfull := Shape.full [] o rest
      rw [List.append_nil, ← ho] at hfull
      have hlength : newer.length = rest.length := by simpa using congrArg List.length ho
      simpa [hlength] using hfull
    | cons o rest =>
      have hfull := Shape.full (newer ++ [a]) o rest
      simpa [Nat.mod_eq_of_lt, Nat.add_assoc, Nat.add_comm 1] using hfull

/-! ## Any number of pushes -/

/-- Write items one after another. -/
def pushAll (r : Ring α) (items : List α) : Ring α := items.foldl push r

theorem pushAll_concat (r : Ring α) (items : List α) (a : α) :
    r.pushAll (items ++ [a]) = (r.pushAll items).push a := by
  rw [pushAll, List.foldl_append]
  rfl

theorem capacity_pushAll (r : Ring α) (items : List α) :
    (r.pushAll items).capacity = r.capacity := by
  induction items using List.reverseRecOn with
  | nil => rfl
  | append_singleton items a ih => rw [pushAll_concat, capacity_push, ih]

theorem rtake_concat_rtake (l : List α) (n : Nat) (a : α) :
    (l.rtake (n + 1) ++ [a]).rtake (n + 1) = (l ++ [a]).rtake (n + 1) := by
  rw [List.rtake_concat_succ, List.rtake_concat_succ]
  simp only [List.rtake_eq_reverse_take_reverse, List.reverse_reverse, List.take_take,
    Nat.min_eq_left (Nat.le_succ n)]

/-- **The window after any number of pushes** is made of the last items. -/
theorem shape_pushAll {capacity : Nat} (h : 0 < capacity) (items : List α) :
    Shape ((empty (capacity : Int)).pushAll items) (items.rtake capacity) := by
  obtain ⟨free, rfl⟩ := Nat.exists_eq_add_of_lt h
  rw [Nat.zero_add]
  induction items using List.reverseRecOn with
  | nil =>
    rw [List.rtake_nil]
    exact shape_empty free
  | append_singleton items a ih =>
    have hpush := shape_push ih a
    rw [capacity_pushAll, capacity_empty, Int.toNat_natCast, rtake_concat_rtake] at hpush
    rw [pushAll_concat]
    exact hpush

/-- The items that were pushed last are read back, oldest first. -/
theorem toList_pushAll {capacity : Nat} (h : 0 < capacity) (items : List α) :
    ((empty (capacity : Int)).pushAll items).toList = items.rtake capacity :=
  (shape_pushAll h items).toList_eq

theorem count_pushAll {capacity : Nat} (h : 0 < capacity) (items : List α) :
    ((empty (capacity : Int)).pushAll items).count = min items.length capacity := by
  rw [(shape_pushAll h items).count_eq, List.rtake, List.length_drop]
  omega

theorem count_pushAll_ne_zero {capacity : Nat} (h : 0 < capacity) (items : List α) :
    ((empty (capacity : Int)).pushAll items).count ≠ 0 ↔ items ≠ [] := by
  rw [count_pushAll h, ← List.length_pos_iff]
  omega

end CakeMonitor.Ring
