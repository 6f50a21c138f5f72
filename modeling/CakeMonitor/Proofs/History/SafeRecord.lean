import CakeMonitor.Proofs.History.Observations
import CakeMonitor.Proofs.Number.Sign

/-!
# Recording is safe

A recording divides by the time that has passed, and the clock is not to be trusted: it may stand still, it
may step back, and between two snapshots of one interface in the same poll no time passes at all. With a
positive interval to fall back to, and counters that grow by less than 2¹⁰²³, all of this is harmless.

* `GrowsBelow`: no counter grows by so much between two observations.
* `nonnegative_rate`: a rate over some time is a number and not negative.
* `Store.Timely`: no track was last seen at a time that is NaN; no attempt with a clock spoils that.
* `Store.records_safely`: no error, rates that are not negative, bounded rings, the interfaces of the poll.
-/

namespace CakeMonitor

open Binary64 (integerLimit)

/-- No counter grows by that much between two observations of its interface. -/
def GrowsBelow (limit : Int) (seen : Text → Option Counters) (stats : List Snapshot) : Prop :=
  ∀ k < stats.length, ∀ x ∈ stats[k]?, ∀ last ∈ seenAfter seen (stats.take k) x.interface,
    x.txBytes - last.txBytes < limit ∧ x.totals.dropped - last.dropped < limit

instance (limit : Int) (seen : Text → Option Counters) (stats : List Snapshot) :
    Decidable (GrowsBelow limit seen stats) :=
  inferInstanceAs (Decidable (∀ k < stats.length, ∀ x ∈ stats[k]?,
    ∀ last ∈ seenAfter seen (stats.take k) x.interface, _))

/-- The growth that is allowed is half of what a double can hold. -/
theorem limit_le : (2 : Int) ^ 1023 ≤ integerLimit := by
  have hnat : 2 ^ 1023 ≤ integerLimit := by decide +kernel
  exact_mod_cast hnat

theorem GrowsBelow.not_outgrows {seen : Text → Option Counters} {stats : List Snapshot}
    (h : GrowsBelow (2 ^ 1023) seen stats) {k : Nat} {x : Snapshot} {last : Counters}
    (hx : stats[k]? = some x) (hlast : seenAfter seen (stats.take k) x.interface = some last) :
    ¬ x.Outgrows last := by
  obtain ⟨hk, -⟩ := List.getElem?_eq_some_iff.mp hx
  obtain ⟨htx, hdrops⟩ := h k hk x hx last hlast
  have hlimit := limit_le
  unfold Snapshot.Outgrows TooMuch
  omega

/-! ## One rate -/

/-- **A rate over some time is nonnegative**, hence a number. -/
theorem nonnegative_rate {current previous : Int} {seconds : Binary64}
    (h : ¬ TooMuch current previous) (hs : Binary64.zero.lt seconds = true) :
    (rate current previous seconds).Nonnegative := by
  unfold TooMuch at h
  unfold rate
  by_cases hlt : current < previous
  · rw [if_pos hlt]
    rfl
  · have habs : (current - previous).natAbs < integerLimit := by omega
    have hsign : decide (current - previous < 0) = false := decide_eq_false (by omega)
    rw [if_neg hlt, ← Binary64.ofInt_eq (Binary64.ofInt_of_lt habs), hsign]
    exact Binary64.nonnegative_div hs

/-- **Some time has always passed**: when the clock says otherwise it is the interval. -/
theorem zero_lt_elapsed {now last interval : Binary64} (hnow : now.IsFinite) (hlast : last ≠ .nan)
    (hinterval : Binary64.zero.lt interval = true) :
    Binary64.zero.lt (Store.elapsed now last interval) = true := by
  unfold Store.elapsed
  dsimp only
  split_ifs with hmeasured
  · exact hinterval
  · exact Binary64.zero_lt_of_not_le (Binary64.sub_ne_nan hnow hlast) hmeasured

namespace Store

variable {s : Store} {now interval : Binary64} {stats : List Snapshot}

/-! ## The clock of earlier attempts -/

/-- Every interface was last seen at a time that is not NaN. -/
def Timely (s : Store) : Prop := ∀ i track, s.track? i = some track → track.time ≠ .nan

theorem timely_put (hnow : now ≠ .nan) (h : s.Timely) (x : Snapshot) :
    (s.put x.interface (s.advance now interval x)).Timely := by
  intro i track htrack
  rw [track?_put] at htrack
  split_ifs at htrack with hi
  · obtain rfl := Option.some.inj htrack
    rw [time_advance]
    exact hnow
  · exact h i track htrack

theorem timely_prune (h : s.Timely) (present : List Text) : (s.prune present).Timely := by
  intro i track htrack
  rw [track?_prune] at htrack
  split_ifs at htrack
  exact h i track htrack

theorem timely_after (h : s.Timely) {attempts : List Attempt}
    (hclock : ∀ a ∈ attempts, a.clock ≠ .nan) : (s.after attempts).Timely := by
  refine after_induct (P := Timely) (fun t a ha ht => ?_) h
  exact record_advances (P := Timely) (fun _ x hu => timely_put (hclock a ha) hu x)
    (fun _ present hu => timely_prune hu present) a.stats ht

/-! ## A poll -/

theorem error_record_of_growsBelow (hnow : now.IsFinite) (hinterval : Binary64.zero.lt interval = true)
    (hgrows : GrowsBelow (2 ^ 1023) s.seen stats) : (s.record now interval stats).error = none := by
  obtain ⟨time, htime⟩ := Binary64.succeeds_truncate.mpr hnow
  rw [error_record_iff htime hinterval, overflows_iff]
  rintro ⟨k, x, last, hx, hlast, houtgrows⟩
  exact hgrows.not_outgrows hx hlast houtgrows

/-- **The rates that a poll writes are nonnegative**, and it writes them to all snapshots but the first
of an interface. -/
theorem nonnegative_rates (htimely : s.Timely) (hnow : now.IsFinite)
    (hinterval : Binary64.zero.lt interval = true) (hgrows : GrowsBelow (2 ^ 1023) s.seen stats)
    {k : Nat} {x y : Snapshot} (hx : stats[k]? = some x)
    (hy : (s.advanceAll now interval (stats.take k)).derive now interval x = y) :
    if x.interface ∈ (stats.take k).map (·.interface) ∨ x.interface ∈ s.names then
      y.rates.tx.Nonnegative ∧ y.rates.drops.Nonnegative
    else y = x := by
  have hknown := isSome_track?_advanceAll s now interval (stats.take k) x.interface
  have hseen := seen_advanceAll s now interval (stats.take k)
  subst hy
  unfold derive
  cases htrack : (s.advanceAll now interval (stats.take k)).track? x.interface with
  | none =>
    rw [htrack] at hknown
    rw [if_neg (mt hknown.mpr nofun)]
  | some track =>
    -- the track is from earlier in this poll, or from an attempt before it
    have htime : track.time ≠ .nan := by
      have hfrom := track?_advanceAll htrack
      split_ifs at hfrom
      · rw [hfrom]
        exact hnow.ne_nan
      · exact htimely x.interface track hfrom
    have hlast : seenAfter s.seen (stats.take k) x.interface = some track.counters := by
      rw [← hseen, seen, htrack]
      rfl
    have hmodest := hgrows.not_outgrows hx hlast
    have hpassed := zero_lt_elapsed hnow htime hinterval
    rw [htrack] at hknown
    rw [if_pos (hknown.mp rfl)]
    exact ⟨nonnegative_rate (fun h => hmodest (.inl h)) hpassed,
      nonnegative_rate (fun h => hmodest (.inr h)) hpassed⟩

/-- No ring holds more samples than the store keeps. -/
theorem WellShaped.count_le (h : s.WellShaped) {i : Text} {track : Track} (htrack : s.track? i = some track) :
    track.samples.count ≤ s.capacity ∧ track.samples.toList.length ≤ s.capacity := by
  obtain ⟨hcapacity, window, hshape⟩ := h.shape i track htrack
  have hlength := hshape.length_le
  rw [hcapacity] at hlength
  rw [hshape.count_eq, hshape.toList_eq]
  exact ⟨hlength, hlength⟩

/-- **Recording is safe**, whatever was recorded before and wherever the clock has gone since: it raises
nothing, the rates that it writes are numbers and not negative, no ring outgrows its capacity, and the
interfaces that are left are those of the poll. -/
theorem records_safely {capacity : Int} {attempts : List Attempt} {s : Store}
    (reached : (empty capacity).after attempts = s) {now interval : Binary64} (finite : now.IsFinite)
    (positive : Binary64.zero.lt interval = true) {stats : List Snapshot}
    (modest : GrowsBelow (2 ^ 1023) s.seen stats) :
    (s.record now interval stats).error = none ∧
    ((∀ a ∈ attempts, a.clock ≠ .nan) → ∀ k x, stats[k]? = some x →
      ∃ y, (s.record now interval stats).stats[k]? = some y ∧
        if x.interface ∈ (stats.take k).map (·.interface) ∨ x.interface ∈ s.names then
          y.rates.tx.Nonnegative ∧ y.rates.drops.Nonnegative
        else y = x) ∧
    (∀ i track, (i, track) ∈ (s.record now interval stats).store.tracks →
      track.samples.count ≤ (max capacity 2).toNat ∧
        track.samples.toList.length ≤ (max capacity 2).toNat) ∧
    (s.record now interval stats).store.names.Nodup ∧
    ∀ i, i ∈ (s.record now interval stats).store.names ↔ i ∈ stats.map (·.interface) := by
  subst reached
  have herror := error_record_of_growsBelow finite positive modest
  have hempty : (empty capacity).names.Nodup := List.nodup_nil
  have hnodup : (((empty capacity).after attempts).record now interval stats).store.names.Nodup :=
    nodup_names_record stats (nodup_names_after hempty attempts)
  refine ⟨herror, ?_, ?_, hnodup, fun i => mem_names_record herror⟩
  · intro hclock k x hx
    have htimely := timely_after (s := empty capacity) nofun hclock
    exact ⟨_, record_stats herror hx, nonnegative_rates htimely finite positive modest hx rfl⟩
  · intro i track hmem
    have hshaped : (((empty capacity).after attempts).record now interval stats).store.WellShaped :=
      wellShaped_record (wellShaped_after (wellShaped_empty capacity) attempts) stats
    have hcapacity : (((empty capacity).after attempts).record now interval stats).store.capacity
        = (max capacity 2).toNat := by
      rw [capacity_record, capacity_after]
      show max capacity.toNat 2 = _
      omega
    rw [← hcapacity]
    exact hshaped.count_le ((track?_eq_some_iff hnodup).mpr hmem)

/-- The clock stands still, one interface comes twice and is reset in between, one is new and one gone. -/
theorem records_safely_standing :
    let s := (empty 1).after [⟨.ofNat 10, .ofNat 1, twoInterfaces 100 50⟩]
    let stats := [Recorded.oneInterface 300, Recorded.oneInterface 250,
      { Recorded.oneInterface 7 with interface := "eth2" }]
    let recorded := s.record (.ofNat 10) (.ofNat 1) stats
    GrowsBelow (2 ^ 1023) s.seen stats ∧ recorded.error = none ∧
      (∃ y, recorded.stats[1]? = some y ∧ y.rates.tx.Nonnegative ∧ y.rates.drops.Nonnegative) ∧
      recorded.stats.map (·.rates.tx) = [.ofNat 200, .zero, .zero] ∧
      ∀ i, i ∈ recorded.store.names ↔ i ∈ stats.map (·.interface) := by
  intro s stats recorded
  have modest : GrowsBelow (2 ^ 1023) s.seen stats := by decide +kernel
  obtain ⟨herror, hrates, -, -, hnames⟩ := @records_safely 1
    [⟨.ofNat 10, .ofNat 1, twoInterfaces 100 50⟩] s rfl (.ofNat 10) (.ofNat 1) (by decide +kernel)
    (by decide +kernel) stats modest
  obtain ⟨y, hy, hwritten⟩ := hrates (by decide +kernel) 1 (Recorded.oneInterface 250) rfl
  have hknown : ("eth0" : Text) ∈ s.names := by decide +kernel
  rw [if_pos (.inr hknown)] at hwritten
  exact ⟨modest, herror, ⟨y, hy, hwritten⟩, by decide +kernel, hnames⟩

end Store

end CakeMonitor
