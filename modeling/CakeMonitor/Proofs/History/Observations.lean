import CakeMonitor.Proofs.History.Overflow
import CakeMonitor.Proofs.History.RecordSteps

/-!
# One observation behind another

The snapshots of a poll are observed one after another, and an interface may have more than one of them.
What a snapshot is compared with is then the last observation of its interface, be it in an earlier poll or
earlier in the same one.

* `seenAfter`: the counters of each interface at its last observation.
* `overflows_iff`: a poll overflows when a counter has grown by too much since then.
* `Store.advanceAll`: the store behind some snapshots; `Store.observeAll_stats` is what a snapshot becomes.
* `Store.seen_advanceAll`, `Store.track?_advanceAll`: the counters and the clock behind them.
* `Store.mem_names_record`: the interfaces that a poll leaves.
-/

namespace CakeMonitor

/-! ## Counters -/

/-- The counters of each interface at its last observation, when these snapshots follow. -/
def seenAfter (seen : Text → Option Counters) (stats : List Snapshot) : Text → Option Counters :=
  stats.foldl (fun seen x => Function.update seen x.interface (some x.counters)) seen

/-- Snapshots of other interfaces leave the counters of an interface alone. -/
theorem seenAfter_of_not_mem {seen : Text → Option Counters} {stats : List Snapshot} {i : Text}
    (h : i ∉ stats.map (·.interface)) : seenAfter seen stats i = seen i := by
  induction stats generalizing seen with
  | nil => rfl
  | cons x xs ih =>
    rw [List.map_cons, List.mem_cons, not_or] at h
    show seenAfter (Function.update seen x.interface (some x.counters)) xs i = seen i
    rw [ih h.2, Function.update_of_ne h.1]

/-- The last snapshot of an interface says what its counters are. -/
theorem seenAfter_of_last {seen : Text → Option Counters} {front back : List Snapshot} {x : Snapshot}
    (h : x.interface ∉ back.map (·.interface)) :
    seenAfter seen (front ++ x :: back) x.interface = some x.counters := by
  have hsplit : seenAfter seen (front ++ x :: back)
      = seenAfter (Function.update (seenAfter seen front) x.interface (some x.counters)) back := by
    unfold seenAfter
    rw [List.foldl_append, List.foldl_cons]
  rw [hsplit, seenAfter_of_not_mem h, Function.update_self]

/-- **A poll overflows** when in one of its snapshots a counter has grown by too much since the last
observation of its interface. -/
theorem overflows_iff {seen : Text → Option Counters} {stats : List Snapshot} :
    Overflows seen stats ↔ ∃ (k : Nat) (x : Snapshot) (last : Counters), stats[k]? = some x ∧
      seenAfter seen (stats.take k) x.interface = some last ∧ x.Outgrows last := by
  -- behind the first snapshot the others are compared with the counters as it leaves them
  induction stats generalizing seen with
  | nil => simp [Overflows]
  | cons x xs ih =>
    rw [Overflows, ih]
    constructor
    · rintro (⟨last, hlast, hgrows⟩ | ⟨k, y, last, hy, hlast, hgrows⟩)
      · exact ⟨0, x, last, rfl, hlast, hgrows⟩
      · exact ⟨k + 1, y, last, hy, hlast, hgrows⟩
    · rintro ⟨k, y, last, hy, hlast, hgrows⟩
      cases k with
      | zero =>
        obtain rfl : x = y := Option.some.inj hy
        exact .inl ⟨last, hlast, hgrows⟩
      | succ k => exact .inr ⟨k, y, last, hy, hlast, hgrows⟩

namespace Store

variable {s : Store} {now interval : Binary64} {stats : List Snapshot}

/-! ## Snapshots one after another -/

/-- The store behind snapshots that are observed without an error. -/
def advanceAll (s : Store) (now interval : Binary64) (stats : List Snapshot) : Store :=
  stats.foldl (fun s x => s.put x.interface (s.advance now interval x)) s

theorem observeAll_store (h : (s.observeAll now interval stats).error = none) :
    (s.observeAll now interval stats).store = s.advanceAll now interval stats := by
  induction stats generalizing s with
  | nil => rfl
  | cons x xs ih =>
    obtain ⟨hxs, hall⟩ := observeAll_cons h
    rw [hall]
    exact ih hxs

/-- **A snapshot gets its rates** in the store behind those in front of it. -/
theorem observeAll_stats (h : (s.observeAll now interval stats).error = none) {k : Nat} {x : Snapshot}
    (hx : stats[k]? = some x) : (s.observeAll now interval stats).stats[k]?
      = some ((s.advanceAll now interval (stats.take k)).derive now interval x) := by
  induction stats generalizing s k with
  | nil => cases hx
  | cons y ys ih =>
    obtain ⟨hys, hall⟩ := observeAll_cons h
    rw [hall]
    cases k with
    | zero =>
      obtain rfl : y = x := Option.some.inj hx
      rfl
    | succ k => exact ih hys hx

theorem record_stats (h : (s.record now interval stats).error = none) {k : Nat} {x : Snapshot}
    (hx : stats[k]? = some x) : (s.record now interval stats).stats[k]?
      = some ((s.advanceAll now interval (stats.take k)).derive now interval x) := by
  rw [error_record] at h
  have hstats := observeAll_stats h hx
  unfold record
  rcases ho : s.observeAll now interval stats with ⟨s₁, result, _ | e⟩
  · rw [ho] at hstats
    exact hstats
  · rw [ho] at hstats
    exact hstats

theorem record_store (h : (s.record now interval stats).error = none) :
    (s.record now interval stats).store
      = (s.advanceAll now interval stats).prune (stats.map (·.interface)) := by
  rw [error_record] at h
  have hstore := observeAll_store h
  have hnames := interfaces_observeAll now interval stats s
  unfold record
  rcases ho : s.observeAll now interval stats with ⟨s₁, result, _ | e⟩
  · rw [ho] at hstore hnames
    replace hnames : result.map (·.interface) = stats.map (·.interface) := hnames
    show s₁.prune _ = _
    rw [hnames, show s₁ = _ from hstore]
  · rw [ho] at h
    cases h

/-! ## What is seen in the store behind them -/

/-- **The counters in the store are those of the last observation.** -/
theorem seen_advanceAll (s : Store) (now interval : Binary64) (stats : List Snapshot) :
    (s.advanceAll now interval stats).seen = seenAfter s.seen stats := by
  induction stats generalizing s with
  | nil => rfl
  | cons x xs ih =>
    have hxs := ih (s.put x.interface (s.advance now interval x))
    rw [seen_put, counters_advance] at hxs
    exact hxs

theorem time_advance (s : Store) (now interval : Binary64) (x : Snapshot) :
    (s.advance now interval x).time = now := by
  unfold advance
  split <;> rfl

/-- A track is of the poll, with its clock, or it was there before. -/
theorem track?_advanceAll {i : Text} {track : Track}
    (h : (s.advanceAll now interval stats).track? i = some track) :
    if i ∈ stats.map (·.interface) then track.time = now else s.track? i = some track := by
  induction stats using List.reverseRecOn with
  | nil => exact h
  | append_singleton front x ih =>
    have hconcat : s.advanceAll now interval (front ++ [x])
        = (s.advanceAll now interval front).put x.interface
            ((s.advanceAll now interval front).advance now interval x) := by
      unfold advanceAll
      rw [List.foldl_append]
      rfl
    rw [hconcat, track?_put] at h
    rw [List.map_append, List.map_singleton]
    by_cases hi : x.interface = i
    · rw [if_pos hi] at h
      obtain rfl := Option.some.inj h
      rw [if_pos (by simp [hi]), time_advance]
    · rw [if_neg hi] at h
      simpa [Ne.symm hi] using ih h

/-! ## Interfaces -/

theorem mem_names_iff {i : Text} : i ∈ s.names ↔ (s.track? i).isSome = true := by
  unfold names track?
  rw [Option.isSome_map, List.find?_isSome, List.mem_map]
  simp only [decide_eq_true_eq]

/-- An interface is known behind some snapshots when it was known before or has one among them. -/
theorem isSome_track?_advanceAll (s : Store) (now interval : Binary64) (stats : List Snapshot) (i : Text) :
    ((s.advanceAll now interval stats).track? i).isSome = true
      ↔ i ∈ stats.map (·.interface) ∨ i ∈ s.names := by
  induction stats generalizing s with
  | nil => simp [advanceAll, mem_names_iff]
  | cons x xs ih =>
    show ((advanceAll (s.put x.interface (s.advance now interval x)) now interval xs).track? i).isSome
      = true ↔ _
    rw [ih, mem_names_iff, mem_names_iff, track?_put, List.map_cons, List.mem_cons]
    by_cases hi : x.interface = i
    · simp [hi]
    · simp [hi, Ne.symm hi]

/-- **A poll leaves its own interfaces and no others.** -/
theorem mem_names_record (h : (s.record now interval stats).error = none) {i : Text} :
    i ∈ (s.record now interval stats).store.names ↔ i ∈ stats.map (·.interface) := by
  rw [record_store h, mem_names_iff, track?_prune]
  by_cases hi : i ∈ stats.map (·.interface)
  · rw [if_pos hi, isSome_track?_advanceAll]
    exact iff_of_true (.inl hi) hi
  · rw [if_neg hi]
    exact iff_of_false nofun hi

theorem nodup_names_after (h : s.names.Nodup) (attempts : List Attempt) :
    (s.after attempts).names.Nodup :=
  after_induct (P := fun t => t.names.Nodup) (fun _ a _ => nodup_names_record a.stats) h

theorem capacity_after (s : Store) (attempts : List Attempt) :
    (s.after attempts).capacity = s.capacity :=
  after_induct (P := fun t => t.capacity = s.capacity)
    (fun t a _ ht => (capacity_record (s := t) a.stats).trans ht) rfl

end Store

end CakeMonitor
