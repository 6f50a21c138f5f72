import CakeMonitor.Proofs.History.Runs

/-!
# Recordings that fail

A recording writes one interface after another, and an error ends it where it occurs. What it wrote
before stays, so it leaves no trace only when it fails at once, before anything is written.

* `Store.record_of_error`: what a recording that fails leaves.
* `Store.FailsAtOnce`: it fails at its first snapshot, with no rate of it changed.
* `Store.recorded_after`: attempts that fail at once might as well not have been made.
* `Store.NoneFails`: none of some attempts fails, so that each is a recorded poll.
* `Store.failed_attempts_intact`: which failures leave store and snapshots as they were, and the rates
  that are recorded behind them.
-/

namespace CakeMonitor

/-! ## Where a recording breaks off -/

namespace Store

variable {s : Store} {now interval : Binary64}

/-- An update that fails does not touch the store. -/
theorem store_update_of_error {x : Snapshot} {track : Track}
    (h : (s.update now interval x track).error ≠ none) :
    (s.update now interval x track).store = s := by
  have hupdated := updated_update s now interval x track
  generalize s.update now interval x track = outcome at h hupdated ⊢
  cases hupdated with
  | renewed => exact absurd rfl h
  | bytes | drops | clock => rfl

theorem store_observe_of_error {x : Snapshot} (h : (s.observe now interval x).error ≠ none) :
    (s.observe now interval x).store = s := by
  unfold observe at h ⊢
  cases htrack : s.track? x.interface with
  | none =>
    rw [htrack] at h
    exact absurd rfl h
  | some track =>
    rw [htrack] at h
    exact store_update_of_error h

/-- What the next tracks and forgotten interfaces keep, a poll keeps, with an error or without. -/
theorem record_advances {P : Store → Prop}
    (hput : ∀ (s : Store) (x : Snapshot), P s → P (s.put x.interface (s.advance now interval x)))
    (hprune : ∀ (s : Store) (present : List Text), P s → P (s.prune present))
    (stats : List Snapshot) (h : P s) : P (s.record now interval stats).store := by
  refine record_invariant (fun t x ht => ?_) hprune stats h
  by_cases herror : (t.observe now interval x).error = none
  · rw [observe_eq herror]
    exact hput t x ht
  · rw [store_observe_of_error herror]
    exact ht

/-- **Where an error occurs**: the snapshots in front of one are recorded, that one is refused with
some of its rates written perhaps, and those behind it are not looked at. -/
theorem observeAll_of_error {stats : List Snapshot} {e : NumberError}
    (h : (s.observeAll now interval stats).error = some e) : ∃ front x back y,
      stats = front ++ x :: back ∧
      (s.observeAll now interval front).error = none ∧
      (s.observeAll now interval front).store.observe now interval x
        = ⟨(s.observeAll now interval front).store, y, some e⟩ ∧
      s.observeAll now interval stats
        = ⟨(s.observeAll now interval front).store,
            (s.observeAll now interval front).stats ++ y :: back, some e⟩ := by
  induction stats generalizing s with
  | nil => cases h
  | cons x xs ih =>
    rcases hx : s.observe now interval x with ⟨s₁, y, _ | e'⟩
    · have hcons (l : List Snapshot) : s.observeAll now interval (x :: l)
          = ⟨(s₁.observeAll now interval l).store, y :: (s₁.observeAll now interval l).stats,
              (s₁.observeAll now interval l).error⟩ := by
        rw [observeAll, hx]
      rw [hcons] at h
      obtain ⟨front, z, back, z', rfl, hfront, hz, hall⟩ := ih h
      refine ⟨x :: front, z, back, z', rfl, ?_, ?_, ?_⟩
      · rw [hcons]
        exact hfront
      · rw [hcons]
        exact hz
      · rw [hcons, hcons, hall]
        rfl
    · have hall : s.observeAll now interval (x :: xs) = ⟨s₁, y :: xs, some e'⟩ := by
        rw [observeAll, hx]
      have hstore : s₁ = s := by
        have hkept : (s.observe now interval x).error ≠ none →
            (s.observe now interval x).store = s := store_observe_of_error
        rw [hx] at hkept
        exact hkept (Option.some_ne_none e')
      rw [hall] at h
      obtain rfl := Option.some.inj h
      subst hstore
      exact ⟨[], x, xs, y, rfl, rfl, hx, hall⟩

/-- **What a recording that fails leaves**: the snapshots in front of the one that is refused, and no
interface is forgotten. -/
theorem record_of_error {stats : List Snapshot} {e : NumberError}
    (h : (s.record now interval stats).error = some e) : ∃ front x back y,
      stats = front ++ x :: back ∧
      (s.observeAll now interval front).error = none ∧
      (s.observeAll now interval front).store.observe now interval x
        = ⟨(s.observeAll now interval front).store, y, some e⟩ ∧
      s.record now interval stats
        = ⟨(s.observeAll now interval front).store,
            (s.observeAll now interval front).stats ++ y :: back, some e⟩ := by
  rw [error_record] at h
  obtain ⟨front, x, back, y, hsplit, hfront, hx, hall⟩ := observeAll_of_error h
  refine ⟨front, x, back, y, hsplit, hfront, hx, ?_⟩
  rw [record, hall]

end Store

/-! ## Failing at once -/

open Store (elapsed)

/-- The snapshot cannot be recorded behind the track, and the rates that are written before that shows
are those that stood there. -/
inductive Track.Refuses (track : Track) (now interval : Binary64) (x : Snapshot) : Prop
  | bytes {e : NumberError}
      (fails : growth x.txBytes track.txBytes (elapsed now track.time interval) = .error e)
  | drops {e : NumberError}
      (bytes : growth x.txBytes track.txBytes (elapsed now track.time interval) = .ok x.rates.tx)
      (fails : growth x.totals.dropped track.dropped (elapsed now track.time interval) = .error e)
  | clock {tx drops : Binary64} {e : NumberError}
      (bytes : growth x.txBytes track.txBytes (elapsed now track.time interval) = .ok tx)
      (drops : growth x.totals.dropped track.dropped (elapsed now track.time interval) = .ok drops)
      (written : x.rates = track.rates now interval x)
      (fails : now.truncate = .error e)

namespace Store

variable {s : Store} {now interval : Binary64}

/-- A track refuses a snapshot when the update fails and leaves it as it is. -/
theorem refuses_iff {x : Snapshot} {track : Track} : track.Refuses now interval x ↔
    (s.update now interval x track).error ≠ none ∧ (s.update now interval x track).stats = x := by
  constructor
  · intro h
    unfold update
    cases h with
    | bytes fails => simp [fails]
    | drops bytes fails => simp [bytes, fails]
    | clock bytes drops written fails =>
      have hwritten := written
      unfold Track.rates at hwritten
      rw [← growth_eq bytes, ← growth_eq drops] at hwritten
      simp only [bytes, drops, fails]
      refine ⟨nofun, ?_⟩
      rw [← hwritten]
  · rintro ⟨herror, hstats⟩
    have hupdated := updated_update s now interval x track
    generalize s.update now interval x track = outcome at herror hstats hupdated
    cases hupdated with
    | bytes fails => exact .bytes fails
    | drops bytes fails =>
      have hrate : _ = x.rates.tx := congrArg (·.rates.tx) hstats
      exact .drops (hrate ▸ bytes) fails
    | clock bytes drops fails =>
      exact .clock bytes drops (congrArg (·.rates) hstats).symm fails
    | renewed => exact absurd rfl herror

end Store

/-! ## Attempts -/

/-- An attempt to record a poll: the clock, the nominal interval, and the snapshots. -/
structure Attempt where
  clock : Binary64
  interval : Binary64
  stats : List Snapshot

namespace Attempt

/-- The interfaces of the poll. -/
def names (a : Attempt) : List Text := a.stats.map (·.interface)

/-- The recorded poll, with what its snapshots became. -/
def poll (a : Attempt) (result : List Snapshot) : RecordedPoll where
  clock := a.clock
  interval := a.interval
  stats := a.stats
  result := result

end Attempt

namespace Store

/-- Record the poll of an attempt. -/
def attempt (s : Store) (a : Attempt) : Outcome (List Snapshot) := s.record a.clock a.interval a.stats

/-- The store after some attempts, each of which may fail. -/
def after (s : Store) (attempts : List Attempt) : Store :=
  attempts.foldl (fun s a => (s.attempt a).store) s

/-- The polls of the attempts that did not fail, newest first. -/
def recordedPolls (s : Store) (attempts : List Attempt) : List RecordedPoll :=
  match attempts with
  | [] => []
  | a :: later =>
    (s.attempt a).store.recordedPolls later ++
      if (s.attempt a).error = none then [a.poll (s.attempt a).stats] else []

/-- The attempt leaves store and snapshots as they were. -/
structure LeavesIntact (s : Store) (a : Attempt) : Prop where
  store : (s.attempt a).store = s
  stats : (s.attempt a).stats = a.stats

/-- The attempt fails at its first snapshot, and no rate of it is changed by then. -/
def FailsAtOnce (s : Store) (a : Attempt) : Prop :=
  ∃ x rest, a.stats = x :: rest ∧ ∃ track, s.track? x.interface = some track ∧
    track.Refuses a.clock a.interval x

variable {s : Store} {a : Attempt}

theorem after_concat (s : Store) (attempts : List Attempt) (a : Attempt) :
    s.after (attempts ++ [a]) = ((s.after attempts).attempt a).store := by
  unfold after
  rw [List.foldl_append]
  rfl

/-- What each attempt keeps, all of them keep. -/
theorem after_induct {P : Store → Prop} {attempts : List Attempt}
    (hattempt : ∀ (s : Store) (a : Attempt), a ∈ attempts → P s → P (s.attempt a).store) (h : P s) :
    P (s.after attempts) := by
  induction attempts generalizing s with
  | nil => exact h
  | cons a later ih =>
    refine ih (fun t b hb => hattempt t b (List.mem_cons_of_mem a hb)) ?_
    exact hattempt s a List.mem_cons_self h

theorem recordedPolls_append (s : Store) (first later : List Attempt) :
    s.recordedPolls (first ++ later) = (s.after first).recordedPolls later ++ s.recordedPolls first := by
  induction first generalizing s with
  | nil => exact (List.append_nil _).symm
  | cons a first ih =>
    rw [List.cons_append, recordedPolls, ih, List.append_assoc]
    rfl

theorem recordedPolls_concat (s : Store) (attempts : List Attempt) (a : Attempt) :
    s.recordedPolls (attempts ++ [a])
      = (if ((s.after attempts).attempt a).error = none then
          [a.poll ((s.after attempts).attempt a).stats] else []) ++ s.recordedPolls attempts := by
  rw [recordedPolls_append]
  rfl

/-- An attempt fails at once when its first snapshot is refused and stays as it is. -/
theorem failsAtOnce_iff : s.FailsAtOnce a ↔ ∃ x rest, a.stats = x :: rest ∧
    (s.observe a.clock a.interval x).error ≠ none ∧ (s.observe a.clock a.interval x).stats = x := by
  unfold FailsAtOnce
  refine exists_congr fun x => exists_congr fun rest => and_congr_right fun _ => ?_
  unfold observe
  cases htrack : s.track? x.interface with
  | none => simp
  | some track =>
    simp only [Option.some.injEq, exists_eq_left']
    exact refuses_iff

/-- **An attempt that fails at once leaves everything as it was.** -/
theorem leavesIntact_of_failsAtOnce (h : s.FailsAtOnce a) : s.LeavesIntact a := by
  obtain ⟨x, rest, hstats, herror, hx⟩ := failsAtOnce_iff.mp h
  have hstore := store_observe_of_error herror
  rcases hobserve : s.observe a.clock a.interval x with ⟨s₁, y, _ | e⟩
  · rw [hobserve] at herror
    exact absurd rfl herror
  · rw [hobserve] at hx hstore
    obtain rfl : y = x := hx
    obtain rfl : s₁ = s := hstore
    have hattempt : s₁.attempt a = ⟨s₁, a.stats, some e⟩ := by
      rw [attempt, record, hstats, observeAll, hobserve]
    exact ⟨by rw [hattempt], by rw [hattempt]⟩

end Store

/-! ## Rings go on -/

/-- A push moves on to another slot, if there are two. -/
theorem Ring.push_ne {α : Type} {r : Ring α} (h : r.head < r.capacity) (htwo : 2 ≤ r.capacity) (a : α) :
    r.push a ≠ r := by
  intro he
  have hhead : (r.head + 1) % r.capacity = r.head := congrArg Ring.head he
  rcases Nat.lt_or_ge (r.head + 1) r.capacity with hlt | hge
  · rw [Nat.mod_eq_of_lt hlt] at hhead
    omega
  · have hlast : r.head + 1 = r.capacity := by omega
    rw [hlast, Nat.mod_self] at hhead
    omega

namespace Store

variable {s : Store} {now interval : Binary64}

/-- The samples of every interface stand in a ring of two slots or more. -/
structure WellShaped (s : Store) : Prop where
  two_le : 2 ≤ s.capacity
  shape : ∀ i track, s.track? i = some track →
    track.samples.capacity = s.capacity ∧ ∃ window, Ring.Shape track.samples window

theorem wellShaped_empty (capacity : Int) : (empty capacity).WellShaped where
  two_le := Nat.le_max_right _ _
  shape := nofun

/-- The track that a snapshot leads to has a ring of the same size. -/
theorem shape_advance (h : s.WellShaped) (x : Snapshot) :
    (s.advance now interval x).samples.capacity = s.capacity ∧
      ∃ window, Ring.Shape (s.advance now interval x).samples window := by
  unfold advance
  cases htrack : s.track? x.interface with
  | none =>
    have htwo := h.two_le
    obtain ⟨free, hfree⟩ : ∃ free, s.capacity = free + 1 := ⟨s.capacity - 1, by omega⟩
    refine ⟨by simp [firstTrack], [], ?_⟩
    simp only [firstTrack, hfree]
    exact Ring.shape_empty free
  | some track =>
    obtain ⟨hcapacity, window, hshape⟩ := h.shape x.interface track htrack
    exact ⟨by simp [Track.renewed, hcapacity], _, Ring.shape_push hshape _⟩

theorem wellShaped_put (h : s.WellShaped) (x : Snapshot) :
    (s.put x.interface (s.advance now interval x)).WellShaped := by
  refine ⟨h.two_le, fun i track htrack => ?_⟩
  rw [track?_put] at htrack
  split_ifs at htrack with hi
  · obtain rfl := Option.some.inj htrack
    exact shape_advance h x
  · exact h.shape i track htrack

theorem wellShaped_prune (h : s.WellShaped) (present : List Text) : (s.prune present).WellShaped := by
  refine ⟨h.two_le, fun i track htrack => ?_⟩
  rw [track?_prune] at htrack
  split_ifs at htrack
  exact h.shape i track htrack

theorem wellShaped_record (h : s.WellShaped) (stats : List Snapshot) :
    (s.record now interval stats).store.WellShaped :=
  record_advances (P := WellShaped) (fun _ x hs => wellShaped_put hs x)
    (fun _ present hs => wellShaped_prune hs present) stats h

theorem wellShaped_after (h : s.WellShaped) (attempts : List Attempt) :
    (s.after attempts).WellShaped :=
  after_induct (P := WellShaped) (fun _ a _ ht => wellShaped_record ht a.stats) h

/-- A snapshot never leads back to the track that was there. -/
theorem advance_ne (h : s.WellShaped) (x : Snapshot) :
    some (s.advance now interval x) ≠ s.track? x.interface := by
  unfold advance
  cases htrack : s.track? x.interface with
  | none => nofun
  | some track =>
    obtain ⟨hcapacity, window, hshape⟩ := h.shape x.interface track htrack
    have htwo : 2 ≤ track.samples.capacity := hcapacity ▸ h.two_le
    intro he
    exact Ring.push_ne hshape.head_lt htwo _ (congrArg Track.samples (Option.some.inj he))

/-- When a snapshot was recorded the store is another one. -/
theorem store_observeAll_ne (h : s.WellShaped) {x : Snapshot} {xs : List Snapshot}
    (herror : (s.observeAll now interval (x :: xs)).error = none)
    (distinct : ((x :: xs).map (·.interface)).Nodup) :
    (s.observeAll now interval (x :: xs)).store ≠ s := by
  intro he
  obtain ⟨-, htrack⟩ := observeAll_spec herror distinct
  have hfirst := htrack x.interface
  rw [he] at hfirst
  simp only [List.find?_cons, decide_true, Option.map_some, Option.some_or] at hfirst
  exact advance_ne h x hfirst.symm

/-! ## Which failures leave no trace -/

variable {a : Attempt}

/-- Among polls of distinct interfaces no other failure leaves everything as it was. -/
theorem failsAtOnce_of_leavesIntact (h : s.WellShaped) (fails : (s.attempt a).error ≠ none)
    (distinct : a.names.Nodup) (hintact : s.LeavesIntact a) : s.FailsAtOnce a := by
  obtain ⟨e, he⟩ := Option.ne_none_iff_exists'.mp fails
  obtain ⟨front, x, back, y, hsplit, hfront, hx, hrecord⟩ := record_of_error he
  obtain ⟨hstore, hstats⟩ := hintact
  rw [attempt, hrecord] at hstore hstats
  cases front with
  | cons z front =>
    have hdistinct : ((z :: front).map (·.interface)).Nodup := by
      rw [Attempt.names, hsplit, List.map_append] at distinct
      exact (List.nodup_append.mp distinct).1
    exact absurd hstore (store_observeAll_ne h hfront hdistinct)
  | nil =>
    rw [List.nil_append] at hsplit
    rw [hsplit] at hstats
    obtain rfl : y = x := (List.cons.inj hstats).1
    replace hx : s.observe a.clock a.interval y = ⟨s, y, some e⟩ := hx
    refine failsAtOnce_iff.mpr ⟨y, back, hsplit, ?_, ?_⟩
    · rw [hx]
      nofun
    · rw [hx]

/-- Those of the attempts that fail do so at once. -/
def FailOnlyAtOnce (s : Store) (attempts : List Attempt) : Prop :=
  ∀ earlier a, earlier ++ [a] <+: attempts →
    ((s.after earlier).attempt a).error ≠ none → (s.after earlier).FailsAtOnce a

theorem failOnlyAtOnce_nil (s : Store) : s.FailOnlyAtOnce [] := forall_parts_nil

theorem failOnlyAtOnce_concat {s : Store} {attempts : List Attempt} {a : Attempt} :
    s.FailOnlyAtOnce (attempts ++ [a]) ↔ s.FailOnlyAtOnce attempts ∧
      (((s.after attempts).attempt a).error ≠ none → (s.after attempts).FailsAtOnce a) :=
  forall_parts_concat

/-- None of the attempts fails. -/
def NoneFails (s : Store) (attempts : List Attempt) : Prop :=
  ∀ earlier a, earlier ++ [a] <+: attempts → ((s.after earlier).attempt a).error = none

theorem NoneFails.initial {s : Store} {first attempts : List Attempt} (h : s.NoneFails attempts)
    (hfirst : first <+: attempts) : s.NoneFails first :=
  fun earlier a hpart => h earlier a (hpart.trans hfirst)

theorem NoneFails.failOnlyAtOnce {s : Store} {attempts : List Attempt} (h : s.NoneFails attempts) :
    s.FailOnlyAtOnce attempts :=
  fun earlier a hpart fails => absurd (h earlier a hpart) fails

theorem noneFails_nil (s : Store) : s.NoneFails [] := forall_parts_nil

theorem noneFails_concat {s : Store} {attempts : List Attempt} {a : Attempt} :
    s.NoneFails (attempts ++ [a]) ↔ s.NoneFails attempts ∧ ((s.after attempts).attempt a).error = none :=
  forall_parts_concat

/-- Where none fails, each is a recorded poll. -/
theorem NoneFails.length_recordedPolls {s : Store} {attempts : List Attempt} (h : s.NoneFails attempts) :
    (s.recordedPolls attempts).length = attempts.length := by
  induction attempts using List.reverseRecOn with
  | nil => rfl
  | append_singleton attempts a ih =>
    obtain ⟨hbefore, hlast⟩ := noneFails_concat.mp h
    rw [recordedPolls_concat, if_pos hlast, List.singleton_append, List.length_cons, ih hbefore,
      List.length_append, List.length_singleton]

/-- **Attempts that fail at once might as well not have been made**: the polls that were recorded lead
to the same store. -/
theorem recorded_after (capacity : Int) (attempts : List Attempt)
    (hfails : (empty capacity).FailOnlyAtOnce attempts) (distinct : ∀ a ∈ attempts, a.names.Nodup) :
    Recorded capacity ((empty capacity).recordedPolls attempts) ((empty capacity).after attempts) := by
  induction attempts using List.reverseRecOn with
  | nil => exact .start
  | append_singleton attempts a ih =>
    obtain ⟨hearlier, hlast⟩ := failOnlyAtOnce_concat.mp hfails
    have hbefore := ih hearlier fun b hb => distinct b (List.mem_append_left [a] hb)
    rw [recordedPolls_concat, after_concat]
    by_cases herror : (((empty capacity).after attempts).attempt a).error = none
    · rw [if_pos herror]
      have hdistinct := distinct a (List.mem_append_right attempts (List.mem_singleton_self a))
      exact .poll (p := a.poll _) hbefore hdistinct herror rfl
    · rw [if_neg herror, (leavesIntact_of_failsAtOnce (hlast herror)).store]
      exact hbefore

/-- **Which failures leave store and snapshots as they were**, whatever was attempted before: those
that occur at once, and among polls of distinct interfaces no others. Behind such failures the rates of
a poll follow from the last polls that were recorded. -/
theorem failed_attempts_intact {capacity : Int} {attempts : List Attempt} {s : Store}
    (h : (empty capacity).after attempts = s) (a : Attempt) :
    (s.FailsAtOnce a → s.LeavesIntact a) ∧
    ((s.attempt a).error ≠ none → a.names.Nodup → s.LeavesIntact a → s.FailsAtOnce a) ∧
    ((empty capacity).FailOnlyAtOnce attempts → (∀ b ∈ attempts, b.names.Nodup) →
      (s.attempt a).error = none → a.names.Nodup →
        (s.attempt a).stats
          = a.stats.map ((a.poll []).derived ((empty capacity).recordedPolls attempts))) := by
  subst h
  refine ⟨leavesIntact_of_failsAtOnce, ?_, ?_⟩
  · intro fails distinct hintact
    exact failsAtOnce_of_leavesIntact (wellShaped_after (wellShaped_empty capacity) attempts) fails
      distinct hintact
  · intro hfails hdistinct fine distinct
    exact (recorded_after capacity attempts hfails hdistinct).stats_record (p := a.poll []) distinct fine

/-- Two interfaces with that many bytes sent. -/
def twoInterfaces (first second : Int) : List Snapshot :=
  [Recorded.oneInterface first, { Recorded.oneInterface second with interface := "eth1" }]

/-- The first interface has grown by too much: the poll leaves no trace, and the next one has its rates
from the poll before it. -/
theorem failed_attempts_intact_first :
    let seed : Attempt := ⟨.ofNat 10, .ofNat 1, twoInterfaces 100 100⟩
    let failing : Attempt := ⟨.ofNat 11, .ofNat 1, twoInterfaces (tenPow 309) 150⟩
    let next : Attempt := ⟨.ofNat 12, .ofNat 1, twoInterfaces 300 500⟩
    (((empty 1).after [seed]).attempt failing).error = some .integerTooLarge ∧
      ((empty 1).after [seed]).LeavesIntact failing ∧
      (((empty 1).after [seed, failing]).attempt next).stats.map (·.rates.tx)
        = [.ofNat 100, .ofNat 200] := by
  intro seed failing next
  have hatOnce : ((empty 1).after [seed]).FailsAtOnce failing :=
    failsAtOnce_iff.mpr ⟨_, _, rfl, by decide +kernel, by decide +kernel⟩
  have hseed : (empty 1).FailOnlyAtOnce [seed] :=
    failOnlyAtOnce_concat.mpr ⟨failOnlyAtOnce_nil _, fun h => absurd (by decide +kernel) h⟩
  have honly : (empty 1).FailOnlyAtOnce [seed, failing] :=
    failOnlyAtOnce_concat.mpr ⟨hseed, fun _ => hatOnce⟩
  have hrates := (failed_attempts_intact rfl next).2.2 honly (by decide) (by decide +kernel) (by decide)
  refine ⟨by decide +kernel, (failed_attempts_intact rfl failing).1 hatOnce, ?_⟩
  rw [hrates]
  decide +kernel

/-- The second interface has grown by too much: the first is recorded all the same. -/
theorem failed_attempt_leaves_traces :
    let s := (empty 1).after [⟨.ofNat 10, .ofNat 1, twoInterfaces 100 100⟩]
    let failing : Attempt := ⟨.ofNat 11, .ofNat 1, twoInterfaces 150 (tenPow 309)⟩
    (s.attempt failing).error = some .integerTooLarge ∧ failing.names.Nodup ∧
      (s.attempt failing).store ≠ s ∧ (s.attempt failing).stats ≠ failing.stats := by
  decide +kernel

end Store

end CakeMonitor
