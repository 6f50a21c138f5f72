import CakeMonitor.Proofs.History.Failure

/-!
# How many samples a recording adds

A recording goes through its snapshots, and each adds a sample to the series of its own interface or none
at all. So the series of an interface grows by as many samples as there are snapshots of it, at most.

* `Store.samples`: the series of an interface, empty for one that was not seen.
* `Store.samples_record`: what a recording adds to it, with an error or without.
-/

namespace CakeMonitor.Store

variable {s : Store} {now interval : Binary64}

/-- The series of an interface, empty for one that was not seen. -/
def samples (s : Store) (i : Text) : Ring Sample :=
  ((s.track? i).map (·.samples)).getD (Ring.empty s.capacity)

theorem samples_put (s : Store) (i j : Text) (track : Track) :
    (s.put i track).samples j = if i = j then track.samples else s.samples j := by
  unfold samples
  rw [track?_put]
  by_cases h : i = j
  · rw [if_pos h, if_pos h]
    rfl
  · rw [if_neg h, if_neg h]
    rfl

/-- The next track of an interface has one sample more, or is its first and has none. -/
theorem samples_advance (s : Store) (now interval : Binary64) (x : Snapshot) :
    ∃ new : List Sample, new.length ≤ 1 ∧
      (s.advance now interval x).samples = (s.samples x.interface).pushAll new := by
  unfold advance samples
  cases s.track? x.interface with
  | none => exact ⟨[], Nat.zero_le 1, rfl⟩
  | some track => exact ⟨[_], Nat.le_refl 1, rfl⟩

/-- One snapshot adds at most one sample, and to its own interface only. -/
theorem samples_observe (s : Store) (now interval : Binary64) (x : Snapshot) (i : Text) :
    ∃ new : List Sample, new.length ≤ [x.interface].count i ∧
      (s.observe now interval x).store.samples i = (s.samples i).pushAll new := by
  by_cases herror : (s.observe now interval x).error = none
  · rw [observe_eq herror]
    show ∃ new, _ ∧ (s.put x.interface (s.advance now interval x)).samples i = _
    rw [samples_put]
    by_cases hi : x.interface = i
    · subst hi
      obtain ⟨new, hnew, hsamples⟩ := s.samples_advance now interval x
      exact ⟨new, by simpa using hnew, by rw [if_pos rfl, hsamples]⟩
    · exact ⟨[], Nat.zero_le _, by rw [if_neg hi]; rfl⟩
  · rw [store_observe_of_error herror]
    exact ⟨[], Nat.zero_le _, rfl⟩

theorem samples_observeAll (now interval : Binary64) (stats : List Snapshot) (i : Text) (s : Store) :
    ∃ new : List Sample, new.length ≤ (stats.map (·.interface)).count i ∧
      (s.observeAll now interval stats).store.samples i = (s.samples i).pushAll new := by
  induction stats generalizing s with
  | nil => exact ⟨[], Nat.zero_le _, rfl⟩
  | cons x xs ih =>
    obtain ⟨first, hfirst, hsamples⟩ := s.samples_observe now interval x i
    have hcount : ((x :: xs).map (·.interface)).count i
        = [x.interface].count i + (xs.map (·.interface)).count i := by
      rw [List.map_cons, ← List.singleton_append, List.count_append]
    unfold observeAll
    rcases ho : s.observe now interval x with ⟨s₁, x₁, _ | e⟩
    · rw [ho] at hsamples
      obtain ⟨rest, hrest, hall⟩ := ih s₁
      refine ⟨first ++ rest, ?_, ?_⟩
      · rw [List.length_append, hcount]
        omega
      · show (s₁.observeAll now interval xs).store.samples i = _
        rw [hall, hsamples, Ring.pushAll, Ring.pushAll, Ring.pushAll, List.foldl_append]
    · rw [ho] at hsamples
      exact ⟨first, by omega, hsamples⟩

/-- **A recording adds at most one sample for each snapshot of an interface**, be it that it fails. -/
theorem samples_record (stats : List Snapshot) {i : Text} {track : Track}
    (h : (s.record now interval stats).store.track? i = some track) :
    ∃ new : List Sample, new.length ≤ (stats.map (·.interface)).count i ∧
      track.samples = (s.samples i).pushAll new := by
  obtain ⟨new, hnew, hall⟩ := samples_observeAll now interval stats i s
  refine ⟨new, hnew, hall ▸ ?_⟩
  have htrack : (s.observeAll now interval stats).store.track? i = some track := by
    unfold record at h
    rcases ho : s.observeAll now interval stats with ⟨s₁, xs, _ | e⟩
    · rw [ho] at h
      simp only [track?_prune] at h
      split_ifs at h
      exact h
    · rw [ho] at h
      exact h
  rw [samples, htrack]
  rfl

end CakeMonitor.Store
