import CakeMonitor.Proofs.History.Ring

/-!
# A ring is a bounded list

Whatever a ring of at least one slot is asked, in whatever order, it answers like a list of the items
that were pushed, of which only the last count, as many as there are slots. Nothing but a push changes it.

* `Request`, `Answer`: what is asked of a ring, and what it says.
* `Ring.answerAll?`: the answers to successive requests; a ring without slots refuses items.
* `Request.answers`: the answers of the list.
* `Ring.answer?_pushAll`: one request, from which `Ring.answerAll?_pushAll` has all of them.
* `Ring.answers_bounded`: a ring and the list from the beginning.
-/

namespace CakeMonitor

variable {α : Type}

/-- What is asked of a ring. -/
inductive Request (α : Type) where
  | push (item : α)
  /-- the items, oldest first -/
  | items
  /-- how many items there are -/
  | count
  deriving DecidableEq

/-- What is answered. -/
inductive Answer (α : Type) where
  | taken
  | items (list : List α)
  | count (n : Nat)
  deriving DecidableEq

namespace Request

/-- The item that a request pushes. -/
def item? : Request α → Option α
  | push a => some a
  | items => none
  | count => none

/-- The items that some requests push. -/
def pushed (requests : List (Request α)) : List α := requests.filterMap item?

/-- The answer of a list that keeps the last `capacity` of the items pushed so far. -/
def answer (capacity : Nat) (before : List α) : Request α → Answer α
  | push _ => .taken
  | items => .items (before.rtake capacity)
  | count => .count (min before.length capacity)

/-- The answers of such a list to successive requests, behind the items pushed before. -/
def answers (capacity : Nat) (before : List α) : List (Request α) → List (Answer α)
  | [] => []
  | q :: later => q.answer capacity before :: answers capacity (before ++ q.item?.toList) later

theorem pushed_map_push (items : List α) : pushed (items.map push) = items := by
  rw [pushed, List.filterMap_map]
  exact List.filterMap_some

theorem answers_map_push (capacity : Nat) (before items : List α) :
    answers capacity before (items.map push) = items.map fun _ => .taken := by
  induction items generalizing before with
  | nil => rfl
  | cons a items ih =>
    rw [List.map_cons, answers, ih]
    rfl

end Request

namespace Ring

open Request (pushed pushed_map_push answers answers_map_push)

/-- The answer of a ring, and the ring behind it. An item is refused when there is no slot for it. -/
def answer? (r : Ring α) : Request α → Option (Ring α × Answer α)
  | .push a => (r.push? a).map (·, .taken)
  | .items => some (r, .items r.toList)
  | .count => some (r, .count r.count)

/-- The answers of a ring to successive requests, if it refuses none, and the ring behind them. -/
def answerAll? (r : Ring α) : List (Request α) → Option (Ring α × List (Answer α))
  | [] => some (r, [])
  | q :: later =>
    (r.answer? q).bind fun first =>
      (first.1.answerAll? later).map fun rest => (rest.1, first.2 :: rest.2)

variable {capacity : Nat}

/-- There is always a slot to write to. -/
theorem push?_pushAll (h : 0 < capacity) (items : List α) (a : α) :
    ((empty (capacity : Int)).pushAll items).push? a
      = some ((empty (capacity : Int)).pushAll (items ++ [a])) := by
  have hhead := (shape_pushAll h items).head_lt
  rw [push?, if_pos hhead, pushAll_concat]

/-- **One request**: the ring answers like the list, and only a push changes it. -/
theorem answer?_pushAll (h : 0 < capacity) (before : List α) (q : Request α) :
    ((empty (capacity : Int)).pushAll before).answer? q
      = some ((empty (capacity : Int)).pushAll (before ++ q.item?.toList), q.answer capacity before) := by
  cases q with
  | push a =>
    rw [answer?, push?_pushAll h]
    rfl
  | items =>
    rw [answer?, toList_pushAll h]
    simp [Request.item?, Request.answer]
  | count =>
    rw [answer?, count_pushAll h]
    simp [Request.item?, Request.answer]

/-- **All requests**, behind any items that were pushed before. -/
theorem answerAll?_pushAll (h : 0 < capacity) (requests : List (Request α)) (before : List α) :
    ((empty (capacity : Int)).pushAll before).answerAll? requests
      = some ((empty (capacity : Int)).pushAll (before ++ pushed requests),
          answers capacity before requests) := by
  induction requests generalizing before with
  | nil =>
    rw [pushed, List.filterMap_nil, List.append_nil]
    rfl
  | cons q later ih =>
    have hitems : before ++ q.item?.toList ++ pushed later = before ++ pushed (q :: later) := by
      rw [List.append_assoc, pushed, pushed, List.filterMap_cons]
      cases q.item? <;> rfl
    rw [answerAll?, answer?_pushAll h, Option.bind_some, ih, hitems]
    rfl

/-- **A ring is a bounded list**: it refuses no request, its answers are those of the list, and in the
end it is the ring that the pushed items alone lead to. It holds the last of them, as many as it has
slots, and no empty slot is read for them. -/
theorem answers_bounded {capacity : Int} (h : 1 ≤ capacity) (requests : List (Request α)) :
    ∃ r : Ring α,
      (empty capacity).answerAll? requests = some (r, answers capacity.toNat [] requests) ∧
      (empty capacity).answerAll? ((pushed requests).map .push)
        = some (r, (pushed requests).map fun _ => .taken) ∧
      r.count = min (pushed requests).length capacity.toNat ∧
      r.toList = (pushed requests).rtake capacity.toNat ∧
      r.read = r.toList.map some := by
  obtain ⟨n, rfl⟩ := Int.eq_ofNat_of_zero_le (Int.le_trans Int.one_nonneg h)
  have hn : 0 < n := Int.ofNat_lt.mp h
  rw [Int.toNat_natCast]
  refine ⟨(empty n).pushAll (pushed requests), answerAll?_pushAll hn requests [], ?_,
    count_pushAll hn _, toList_pushAll hn _, ?_⟩
  · have halone := answerAll?_pushAll hn ((pushed requests).map .push) []
    rw [pushed_map_push, answers_map_push] at halone
    exact halone
  · rw [toList_pushAll hn]
    exact (shape_pushAll hn _).read_eq

/-- A ring of two slots that is read while it fills, when it is full, and behind the first overwriting. -/
theorem answers_bounded_twoSlots :
    (1 : Int) ≤ 2 ∧ ∃ r : Ring Nat,
      (empty 2).answerAll? [.push 7, .items, .push 8, .items, .push 9, .items, .count]
        = some (r, [.taken, .items [7], .taken, .items [7, 8], .taken, .items [8, 9], .count 2]) ∧
      r.toList = [8, 9] := by
  have htwo : (1 : Int) ≤ 2 := by decide
  obtain ⟨r, hanswers, -, -, hitems, -⟩ :=
    answers_bounded htwo [.push 7, .items, .push 8, .items, .push 9, .items, .count]
  exact ⟨htwo, r, hanswers, hitems⟩

end Ring

end CakeMonitor
