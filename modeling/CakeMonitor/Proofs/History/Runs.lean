import CakeMonitor.Proofs.History.Record

/-!
# The store is a function of the recorded polls

Whatever polls were recorded, the store says of each interface what follows from the polls alone: the
last samples of the unbroken run of polls that saw it. Polls are listed newest first.

* `RecordedPoll.streak`: the sightings of an interface up to the newest poll, with the samples between them.
* `Recorded`: the stores that calls without error lead to.
* `Recorded.track?_eq`: the track of an interface from its streak, which every call preserves.
* `Recorded.refines_polls`: the series and the written snapshots from the calls.
-/

namespace CakeMonitor

/-- A recorded poll: the clock, the nominal interval, the snapshots, and what they became. -/
structure RecordedPoll where
  clock : Binary64
  interval : Binary64
  stats : List Snapshot
  result : List Snapshot

/-- What a poll saw of one interface. -/
structure Sighting where
  clock : Binary64
  interval : Binary64
  snapshot : Snapshot

namespace Sighting

/-- The seconds since an earlier sighting, or the nominal interval when the clock did not advance. -/
def seconds (now before : Sighting) : Binary64 :=
  if (now.clock.sub before.clock).le .zero then now.interval else now.clock.sub before.clock

/-- The rates between two sightings and the worst delays of the later one. -/
def rates (now before : Sighting) : Rates where
  tx := rate now.snapshot.txBytes before.snapshot.txBytes (now.seconds before)
  drops := rate now.snapshot.totals.dropped before.snapshot.totals.dropped (now.seconds before)
  avDelay := Tin.maxDelay .avDelay now.snapshot.tins
  pkDelay := Tin.maxDelay .pkDelay now.snapshot.tins

/-- The sample that a sighting adds behind an earlier one. -/
def sample (now before : Sighting) : Sample where
  time := now.clock.whole
  rates := now.rates before

/-- The samples of successive sightings, oldest first: one for each but the first. -/
def samples : List Sighting → List Sample
  | [] => []
  | [_] => []
  | now :: before :: earlier => samples (before :: earlier) ++ [now.sample before]

end Sighting

namespace RecordedPoll

/-- The interfaces of the poll. -/
def names (p : RecordedPoll) : List Text := p.stats.map (·.interface)

/-- What the poll saw of an interface. -/
def sighting? (p : RecordedPoll) (i : Text) : Option Sighting :=
  (p.stats.find? (·.interface = i)).map fun x => ⟨p.clock, p.interval, x⟩

/-- The sightings of an interface in the polls up to the newest, until one did not see it. -/
def streak (i : Text) : List RecordedPoll → List Sighting
  | [] => []
  | p :: past =>
    match p.sighting? i with
    | none => []
    | some now => now :: streak i past

/-- A snapshot of the poll with the rates that it has behind the earlier polls. -/
def derived (p : RecordedPoll) (past : List RecordedPoll) (x : Snapshot) : Snapshot :=
  match streak x.interface past with
  | [] => x
  | before :: _ => { x with rates := (Sighting.mk p.clock p.interval x).rates before }

/-- Whether both of the last two polls saw the interface. -/
def SeenTwice (i : Text) : List RecordedPoll → Prop
  | p :: q :: _ => i ∈ p.names ∧ i ∈ q.names
  | _ => False

theorem sighting?_isSome (p : RecordedPoll) (i : Text) :
    (p.sighting? i).isSome = true ↔ i ∈ p.names := by
  unfold sighting? names
  rw [Option.isSome_map, Store.isSome_find?_interface]

/-- An interface was seen twice when its streak has two sightings. -/
theorem seenTwice_iff (i : Text) (polls : List RecordedPoll) :
    SeenTwice i polls ↔ Sighting.samples (streak i polls) ≠ [] := by
  match polls with
  | [] => simp [SeenTwice, streak, Sighting.samples]
  | [p] =>
    unfold streak
    cases p.sighting? i <;> simp [SeenTwice, streak, Sighting.samples]
  | p :: q :: past =>
    show i ∈ p.names ∧ i ∈ q.names ↔ _
    rw [← sighting?_isSome, ← sighting?_isSome]
    unfold streak
    cases p.sighting? i with
    | none => simp [Sighting.samples]
    | some now =>
      unfold streak
      cases q.sighting? i <;> simp [Sighting.samples]

end RecordedPoll

open RecordedPoll (streak SeenTwice)

/-- The stores that polls lead to, when each has snapshots of distinct interfaces and raises nothing.
The newest poll comes first. -/
inductive Recorded (capacity : Int) : List RecordedPoll → Store → Prop
  | start : Recorded capacity [] (Store.empty capacity)
  | poll {past : List RecordedPoll} {s : Store} {p : RecordedPoll} (before : Recorded capacity past s)
      (distinct : p.names.Nodup) (fine : (s.record p.clock p.interval p.stats).error = none)
      (result : (s.record p.clock p.interval p.stats).stats = p.result) :
      Recorded capacity (p :: past) (s.record p.clock p.interval p.stats).store

/-- The track that a streak leads to. -/
def trackOf (capacity : Nat) : List Sighting → Option Track
  | [] => none
  | now :: earlier => some {
      txBytes := now.snapshot.txBytes, dropped := now.snapshot.totals.dropped, time := now.clock
      samples := (Ring.empty (capacity : Int)).pushAll (Sighting.samples (now :: earlier)) }

namespace Recorded

variable {capacity : Int} {polls : List RecordedPoll} {s : Store}

theorem capacity_eq (h : Recorded capacity polls s) : s.capacity = (max capacity 2).toNat := by
  induction h with
  | start =>
    show max capacity.toNat 2 = _
    omega
  | @poll _ _ p _ _ _ _ ih => exact (Store.capacity_record p.stats).trans ih

theorem nodup_names (h : Recorded capacity polls s) : s.names.Nodup := by
  induction h with
  | start => exact List.nodup_nil
  | @poll _ _ p _ _ _ _ ih => exact Store.nodup_names_record p.stats ih

/-- A sighting leads from the track of a streak to that of the longer one. -/
theorem trackOf_advance {x : Snapshot} {past : List Sighting} (now interval : Binary64)
    (htrack : s.track? x.interface = trackOf s.capacity past) :
    some (s.advance now interval x) = trackOf s.capacity (⟨now, interval, x⟩ :: past) := by
  unfold Store.advance
  rw [htrack]
  cases past with
  | nil => rfl
  | cons before earlier =>
    rw [trackOf, trackOf, Sighting.samples, Ring.pushAll_concat]
    rfl

/-- **The track of an interface follows from its streak.** -/
theorem track?_eq (h : Recorded capacity polls s) (i : Text) :
    s.track? i = trackOf s.capacity (streak i polls) := by
  induction h with
  | start => rfl
  | @poll past s p before distinct fine _ ih =>
    obtain ⟨-, htrack⟩ := Store.record_spec fine distinct
    rw [htrack i, Store.capacity_record]
    unfold streak RecordedPoll.sighting?
    cases hfind : p.stats.find? (·.interface = i) with
    | none => rfl
    | some x =>
      have hx : x.interface = i := by simpa using List.find?_some hfind
      exact trackOf_advance p.clock p.interval (hx ▸ ih)

/-- The rates that a poll writes follow from the sightings in the poll before. -/
theorem stats_record (h : Recorded capacity polls s) {p : RecordedPoll} (distinct : p.names.Nodup)
    (fine : (s.record p.clock p.interval p.stats).error = none) :
    (s.record p.clock p.interval p.stats).stats = p.stats.map (p.derived polls) := by
  obtain ⟨hstats, -⟩ := Store.record_spec fine distinct
  refine hstats.trans (List.map_congr_left fun x _ => ?_)
  unfold Store.derive RecordedPoll.derived
  rw [h.track?_eq x.interface]
  cases streak x.interface polls with
  | nil => rfl
  | cons before earlier => rfl

/-- **The store is a function of the polls**: every poll's snapshots get their rates from the sighting
in the poll before, and the series of an interface are the last samples of its streak. -/
theorem refines_polls (h : Recorded capacity polls s) :
    (∀ p past, p :: past <:+ polls → p.result = p.stats.map (p.derived past)) ∧
      (s.series.map (·.1)).Nodup ∧
      ∀ i samples, (i, samples) ∈ s.series ↔
        SeenTwice i polls ∧
          samples = (Sighting.samples (streak i polls)).rtake (max capacity 2).toNat := by
  refine ⟨?_, h.nodup_names.sublist s.series_sublist, fun i samples => ?_⟩
  · induction h with
    | start =>
      intro p past hsuffix
      exact absurd (List.suffix_nil.mp hsuffix) (List.cons_ne_nil p past)
    | poll before distinct fine result ih =>
      intro p past hsuffix
      rcases List.suffix_cons_iff.mp hsuffix with heq | hsuffix
      · obtain ⟨rfl, rfl⟩ := List.cons.inj heq
        exact result.symm.trans (before.stats_record distinct fine)
      · exact ih p past hsuffix
  · have hpositive : 0 < s.capacity := by
      rw [h.capacity_eq]
      omega
    rw [Store.mem_series_iff h.nodup_names, h.track?_eq i, RecordedPoll.seenTwice_iff,
      ← h.capacity_eq]
    cases streak i polls with
    | nil => simp [trackOf, Sighting.samples]
    | cons now earlier =>
      have hcount := Ring.count_pushAll_ne_zero hpositive (Sighting.samples (now :: earlier))
      have hitems := Ring.toList_pushAll hpositive (Sighting.samples (now :: earlier))
      rw [trackOf]
      constructor
      · rintro ⟨track, htrack, hsome, rfl⟩
        obtain rfl := Option.some.inj htrack
        exact ⟨hcount.mp hsome, hitems⟩
      · rintro ⟨hne, rfl⟩
        exact ⟨_, rfl, hcount.mpr hne, hitems.symm⟩

/-- One interface with that many bytes sent. -/
def oneInterface (bytes : Int) : Snapshot := { interface := "eth0", totals := { sentBytes := bytes } }

/-- Two hundred bytes in two seconds. -/
theorem refines_two_polls :
    ∃ s, Recorded 1
      [⟨.ofNat 12, .ofNat 1, [oneInterface 300],
          [{ oneInterface 300 with rates := { tx := .ofNat 100 } }]⟩,
        ⟨.ofNat 10, .ofNat 1, [oneInterface 100], [oneInterface 100]⟩] s ∧
      (("eth0" : Text), [({ time := 12, rates := { tx := .ofNat 100 } } : Sample)]) ∈ s.series := by
  have first : Recorded 1 [⟨.ofNat 10, .ofNat 1, [oneInterface 100], [oneInterface 100]⟩] _ :=
    .poll .start (by decide) (by decide +kernel) (by decide +kernel)
  have second : Recorded 1 [⟨.ofNat 12, .ofNat 1, [oneInterface 300],
          [{ oneInterface 300 with rates := { tx := .ofNat 100 } }]⟩,
        ⟨.ofNat 10, .ofNat 1, [oneInterface 100], [oneInterface 100]⟩] _ :=
    .poll first (by decide) (by decide +kernel) (by decide +kernel)
  refine ⟨_, second, (second.refines_polls.2.2 _ _).mpr ⟨⟨by decide, by decide⟩, ?_⟩⟩
  decide +kernel

end Recorded

end CakeMonitor
