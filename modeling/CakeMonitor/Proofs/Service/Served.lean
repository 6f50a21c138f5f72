import CakeMonitor.Proofs.Command.Interfaces
import CakeMonitor.Proofs.MultiQueue.WellFormed
import CakeMonitor.Proofs.Service.Subscribers

/-!
# What is served agrees with itself

The latest snapshots, the time of the last success and the history are three things that a poll writes one
after another and that clients ask for one by one. Whatever happens to the service, the history has a series
for no interface but those of the latest snapshots, and the last sample of a series says what the snapshot
of its interface says.

* `Collector.wellFormed_collect`: what is collected has no rates yet.
* `Store.Shows`: a history that belongs to some snapshots; `Store.shows_record` is one poll.
* `Poller.Consistent`: what clients see of that.
* `Service.Happening`, `Service.undergoAll`: all that can happen to the service.
* `Service.serves_undergo`: one happening; `Service.serves_consistently`: any number of them.
-/

namespace CakeMonitor

/-- Collected snapshots are well formed, whichever report they come from. -/
theorem Collector.wellFormed_collect {c : Collector} {now : Timestamp} {site site' : Site}
    {stats : List Snapshot} (h : (c.collect now).run site = .ok stats site') :
    ∀ s ∈ stats, s.WellFormed := by
  obtain ⟨source, -, hsnapshots⟩ := source_of_collect h
  cases source with
  | printed report => exact fun s hs =>
      (Report.sound_snapshots (mapError_eq_ok.mp hsnapshots) s hs).toWellFormed
  | structured report => exact Structured.wellFormed_snapshots (mapError_eq_ok.mp hsnapshots)

/-! ## The history and the latest snapshots -/

/-- The snapshot says what the last sample of the track says, and has no rates before the first. -/
def Track.EndsWith (capacity : Nat) (track : Track) (x : Snapshot) : Prop :=
  ∃ samples, track.samples = (Ring.empty (capacity : Int)).pushAll samples ∧
    x.rates = (samples.getLast?.map (·.rates)).getD {}

namespace Store

/-- **A history that belongs to some snapshots**: it has one track for each, which ends with what the
snapshot says. -/
structure Shows (s : Store) (latest : List Snapshot) : Prop where
  positive : 0 < s.capacity
  names : s.names.Nodup
  distinct : (latest.map (·.interface)).Nodup
  tracks : ∀ i track, s.track? i = some track →
    ∃ x ∈ latest, x.interface = i ∧ track.EndsWith s.capacity x
  tracked : ∀ x ∈ latest, (s.track? x.interface).isSome = true

theorem shows_empty (capacity : Int) : (empty capacity).Shows [] where
  positive := Nat.lt_of_lt_of_le (by decide : 0 < minCapacity) (Nat.le_max_right _ _)
  names := List.nodup_nil
  distinct := List.nodup_nil
  tracks := nofun
  tracked := List.forall_mem_nil _

variable {s : Store} {clock interval : Binary64} {latest stats : List Snapshot}

/-- A track goes on with one sample, or is a new one without samples. -/
theorem endsWith_advance (h : s.Shows latest) {x : Snapshot} (hx : x.rates = {}) :
    (s.advance clock interval x).EndsWith s.capacity (s.derive clock interval x) := by
  unfold advance derive
  cases htrack : s.track? x.interface with
  | none => exact ⟨[], rfl, hx⟩
  | some track =>
    obtain ⟨-, -, -, samples, hsamples, -⟩ := h.tracks _ track htrack
    refine ⟨samples ++ [{ time := clock.whole, rates := track.rates clock interval x }], ?_, ?_⟩
    · rw [Ring.pushAll_concat, ← hsamples]
      rfl
    · rw [List.getLast?_concat]
      rfl

/-- **A recorded poll** makes the history belong to its snapshots. -/
theorem shows_record (h : s.Shows latest) (hrecorded : (s.record clock interval stats).error = none)
    (distinct : (stats.map (·.interface)).Nodup) (hnew : ∀ x ∈ stats, x.rates = {}) :
    (s.record clock interval stats).store.Shows (s.record clock interval stats).stats := by
  obtain ⟨hstats, htracks⟩ := record_spec hrecorded distinct
  have hcapacity : (s.record clock interval stats).store.capacity = s.capacity :=
    capacity_record stats
  have hinterface (x : Snapshot) : (s.derive clock interval x).interface = x.interface :=
    interface_derive s clock interval x
  refine ⟨hcapacity.symm ▸ h.positive, nodup_names_record stats h.names, ?_, ?_, ?_⟩
  · rw [hstats, List.map_map, show (·.interface) ∘ s.derive clock interval = (·.interface) from
      funext hinterface]
    exact distinct
  · intro i track htrack
    rw [htracks i] at htrack
    obtain ⟨x, hx, rfl⟩ := Option.map_eq_some_iff.mp htrack
    have hmem := List.mem_of_find?_eq_some hx
    have hi : x.interface = i := by simpa using List.find?_some hx
    refine ⟨s.derive clock interval x, ?_, (hinterface x).trans hi, ?_⟩
    · rw [hstats]
      exact List.mem_map_of_mem hmem
    · rw [hcapacity]
      exact endsWith_advance h (hnew x hmem)
  · intro y hy
    rw [hstats] at hy
    obtain ⟨x, hx, rfl⟩ := List.mem_map.mp hy
    rw [htracks, hinterface, Option.isSome_map, isSome_find?_interface]
    exact List.mem_map_of_mem hx

end Store

/-! ## What clients see -/

namespace Poller

/-- **What is served agrees**: every series is that of a snapshot and ends with its rates, it is neither
empty nor too long, and a snapshot without a series has no rates. -/
structure Consistent (p : Poller) : Prop where
  distinct : (p.latest.map (·.interface)).Nodup
  shown : ∀ i samples, (i, samples) ∈ p.history.series → ∃ x ∈ p.latest, x.interface = i ∧
    samples.getLast?.map (·.rates) = some x.rates
  unshown : ∀ x ∈ p.latest, x.interface ∉ p.history.series.map (·.1) → x.rates = {}
  bounded : ∀ i samples, (i, samples) ∈ p.history.series →
    1 ≤ samples.length ∧ samples.length ≤ p.history.capacity

theorem getLast?_rtake {α : Type} (l : List α) {n : Nat} (h : 0 < n) :
    (l.rtake n).getLast? = l.getLast? := by
  obtain ⟨m, rfl⟩ := Nat.exists_eq_add_of_lt h
  cases l using List.reverseRecOn with
  | nil => rw [List.rtake_nil]
  | append_singleton l a => rw [Nat.zero_add, List.rtake_concat_succ, List.getLast?_concat,
      List.getLast?_concat]

theorem consistent_of_shows {p : Poller} (h : p.history.Shows p.latest) : p.Consistent := by
  refine ⟨h.distinct, fun i samples hmem => ?_, fun x hx hnot => ?_, fun i samples hmem => ?_⟩
  · obtain ⟨track, htrack, hcount, rfl⟩ := (Store.mem_series_iff h.names).mp hmem
    obtain ⟨x, hx, hi, samples, hsamples, hrates⟩ := h.tracks i track htrack
    rw [hsamples, Ring.count_pushAll_ne_zero h.positive] at hcount
    refine ⟨x, hx, hi, ?_⟩
    rw [hsamples, Ring.toList_pushAll h.positive, getLast?_rtake samples h.positive, hrates,
      List.getLast?_eq_some_getLast hcount]
    rfl
  · obtain ⟨track, htrack⟩ := Option.isSome_iff_exists.mp (h.tracked x hx)
    obtain ⟨y, hy, hi, samples, hsamples, hrates⟩ := h.tracks _ track htrack
    obtain rfl := List.inj_on_of_nodup_map h.distinct hy hx hi
    cases samples with
    | nil => exact hrates
    | cons a samples =>
      have hseries : (y.interface, track.samples.toList) ∈ p.history.series := by
        refine (Store.mem_series_iff h.names).mpr ⟨track, htrack, ?_, rfl⟩
        rw [hsamples, Ring.count_pushAll_ne_zero h.positive]
        exact List.cons_ne_nil a samples
      exact absurd (List.mem_map_of_mem hseries) hnot
  · obtain ⟨track, htrack, hcount, rfl⟩ := (Store.mem_series_iff h.names).mp hmem
    obtain ⟨-, -, -, samples, hsamples, -⟩ := h.tracks i track htrack
    have hlength : track.samples.toList.length = track.samples.count := by
      rw [hsamples, Ring.toList_pushAll h.positive, Ring.count_pushAll h.positive, List.rtake,
        List.length_drop]
      omega
    have hbound : track.samples.count ≤ p.history.capacity := by
      rw [hsamples, Ring.count_pushAll h.positive]
      exact Nat.min_le_right _ _
    exact ⟨by omega, by omega⟩

/-- What was collected can be recorded: each interface is there once, and recording raises nothing if
there is a time to record. -/
structure Accepts (p : Poller) (t : Timestamp) (stats : List Snapshot) : Prop where
  distinct : (stats.map (·.interface)).Nodup
  recorded : ∀ clock, Time.seconds t = .ok clock →
    (p.history.record clock p.interval stats).error = none

/-- **What is served**: a history of that capacity which belongs to the latest snapshots, and neither
before the first success. -/
structure Serves (p : Poller) (capacity : Int) : Prop where
  shows : p.history.Shows p.latest
  limit : p.history.capacity = (Store.empty capacity).capacity
  unpolled : p.lastSuccess = none → p.latest = [] ∧ p.history = Store.empty capacity

variable {p p' : Poller} {capacity : Int} {t : Timestamp}

theorem serves_take (h : p.Serves capacity) {collected : Except Failure (List Snapshot)}
    (hcollected : ∀ stats, collected = .ok stats → p.Accepts t stats ∧ ∀ x ∈ stats, x.WellFormed) :
    (p.take t collected).1.Serves capacity := by
  unfold take
  split
  · exact h
  · exact ⟨h.shows, h.limit, h.unpolled⟩
  · rename_i stats
    obtain ⟨haccepts, hnew⟩ := hcollected stats rfl
    cases hclock : Time.seconds t with
    | error e => exact h
    | ok clock =>
      have hrecorded := haccepts.recorded clock hclock
      have hshows := Store.shows_record h.shows hrecorded haccepts.distinct fun x hx => (hnew x hx).rates
      have hcapacity : (p.history.record clock p.interval stats).store.capacity = p.history.capacity :=
        Store.capacity_record stats
      dsimp only
      rcases hrecord : p.history.record clock p.interval stats with ⟨history, stats', _ | e⟩
      · rw [hrecord] at hshows hcapacity
        exact ⟨hshows, hcapacity.trans h.limit, nofun⟩
      · rw [hrecord] at hrecorded
        cases hrecorded

/-- Feeds are no part of what is served. -/
theorem Serves.of_feeds {feeds : List Feed} (h : p.Serves capacity) :
    Serves { p with feeds } capacity := ⟨h.shows, h.limit, h.unpolled⟩

end Poller

namespace Service

/-! ## Happenings -/

/-- All that can happen: deeds of polls and subscribers, moves of the loop and of the clients of streams,
and that the clock or the world around the service changes. -/
inductive Happening where
  | deed (d : Deed)
  | move (m : Move)
  | meet (t : Timestamp) (site : Site)

/-- The service after a happening. -/
def undergo (s : Service) : Happening → Service
  | .deed d => s.perform d
  | .move m => s.after m
  | .meet t site => s.meet t site

/-- The service after some happenings. -/
def undergoAll (s : Service) (happenings : List Happening) : Service := happenings.foldl undergo s

/-- The poll that is attempted, if one is: its time, and what is collected. -/
def attempt? (s : Service) : Happening → Option (Timestamp × Except Failure (List Snapshot))
  | .deed (.poll t site) => some (t, ((s.meet t site).collected t).1)
  | .move m => (s.pollsAt? m).map fun t => (t, (s.collected t).1)
  | _ => none

/-- The response of the poll that succeeds, if one does. -/
def success? (s : Service) : Happening → Option Response
  | .deed d => s.published? d
  | .move m => s.completed? m
  | .meet _ _ => none

/-- The responses of all polls that succeed in the course of some happenings. -/
def successes (s : Service) : List Happening → List Response
  | [] => []
  | h :: hs => (s.success? h).toList ++ (s.undergo h).successes hs

/-- What is collected in a happening can be recorded. -/
def Fine (s : Service) (h : Happening) : Prop :=
  ∀ t stats, s.attempt? h = some (t, .ok stats) → s.poller.Accepts t stats

/-- So it is in each of some happenings. -/
def AllFine (s : Service) : List Happening → Prop
  | [] => True
  | h :: hs => s.Fine h ∧ (s.undergo h).AllFine hs

variable {s : Service} {capacity : Int} {h : Happening}

theorem fine_of_attempt {t : Timestamp} {stats : List Snapshot}
    (hattempt : s.attempt? h = some (t, .ok stats)) (haccepts : s.poller.Accepts t stats) : s.Fine h := by
  intro u others hothers
  obtain ⟨rfl, hstats⟩ := Prod.mk.inj (Option.some.inj (hattempt.symm.trans hothers))
  obtain rfl := Except.ok.inj hstats
  exact haccepts

theorem changeFeed_poller (s : Service) (name : Text) (f : Feed → Feed) :
    ∃ feeds, (s.changeFeed name f).poller = { s.poller with feeds } := by
  unfold changeFeed
  cases named? name s.subscriptions with
  | none => exact ⟨s.poller.feeds, rfl⟩
  | some k => exact ⟨_, rfl⟩

/-- **A happening is a poll, or at most the feeds change.** -/
theorem poller_undergo (s : Service) (h : Happening) :
    (∃ t collected, s.attempt? h = some (t, collected) ∧
      (s.undergo h).poller = (s.poller.take t collected).1 ∧
      s.success? h = Poller.published? (s.poller.take t collected) t) ∨
    s.success? h = none ∧ ∃ feeds, (s.undergo h).poller = { s.poller with feeds } := by
  cases h with
  | deed d =>
    cases d with
    | poll t site => exact .inl ⟨t, _, rfl, rfl, rfl⟩
    | subscribe n => exact .inr ⟨rfl, _, rfl⟩
    | unsubscribe n =>
      refine .inr ⟨rfl, ?_⟩
      show ∃ feeds, (s.perform (.unsubscribe n)).poller = _
      rw [perform_unsubscribe]
      exact s.changeFeed_poller n Feed.close
    | read n count =>
      refine .inr ⟨rfl, ?_⟩
      show ∃ feeds, (s.perform (.read n count)).poller = _
      rw [perform_read]
      exact s.changeFeed_poller n (Feed.skip count)
  | move m =>
    cases hpolls : s.pollsAt? m with
    | some t =>
      obtain ⟨hpoller, hcompleted⟩ := poller_after_poll hpolls
      exact .inl ⟨t, _, congrArg (Option.map _) hpolls, hpoller, hcompleted⟩
    | none =>
      obtain ⟨hcompleted, hpoller | hpoller | ⟨k, f, hpoller⟩⟩ := poller_after_other hpolls
      · exact .inr ⟨hcompleted, _, hpoller⟩
      · exact .inr ⟨hcompleted, _, hpoller⟩
      · exact .inr ⟨hcompleted, _, hpoller⟩
  | meet t site => exact .inr ⟨rfl, _, rfl⟩

theorem wellFormed_collected {t : Timestamp} {stats : List Snapshot}
    (h : (s.collected t).1 = .ok stats) : ∀ x ∈ stats, x.WellFormed := by
  unfold collected at h
  cases hrun : (s.collector.collect t).run s.site with
  | ok l site =>
    rw [hrun] at h
    obtain rfl := Except.ok.inj h
    exact Collector.wellFormed_collect hrun
  | error e site =>
    rw [hrun] at h
    cases h

theorem wellFormed_attempt {t : Timestamp} {stats : List Snapshot}
    (hattempt : s.attempt? h = some (t, .ok stats)) : ∀ x ∈ stats, x.WellFormed := by
  match h with
  | .deed (.poll u site) =>
    obtain ⟨-, hstats⟩ := Prod.mk.inj (Option.some.inj hattempt)
    exact wellFormed_collected hstats
  | .deed (.subscribe _) | .deed (.unsubscribe _) | .deed (.read _ _) | .meet _ _ => cases hattempt
  | .move m =>
    obtain ⟨u, -, hu⟩ := Option.map_eq_some_iff.mp hattempt
    obtain ⟨-, hstats⟩ := Prod.mk.inj hu
    exact wellFormed_collected hstats

/-- **One happening** leaves what is served in agreement. -/
theorem serves_undergo (hs : s.poller.Serves capacity) (hfine : s.Fine h) :
    (s.undergo h).poller.Serves capacity := by
  obtain ⟨t, collected, hattempt, hpoller, -⟩ | ⟨-, feeds, hpoller⟩ := s.poller_undergo h
  · rw [hpoller]
    refine Poller.serves_take hs fun stats hstats => ?_
    rw [hstats] at hattempt
    exact ⟨hfine t stats hattempt, wellFormed_attempt hattempt⟩
  · rw [hpoller]
    exact hs.of_feeds

/-- The time of the last success is that of a poll which succeeds, and stays otherwise. -/
theorem lastSuccess_undergo (s : Service) (h : Happening) :
    (s.undergo h).poller.lastSuccess = none ↔ s.poller.lastSuccess = none ∧ s.success? h = none := by
  obtain ⟨t, collected, -, hpoller, hsuccess⟩ | ⟨hsuccess, feeds, hpoller⟩ := s.poller_undergo h
  · have hshows := s.poller.shows_take t collected
    rw [hpoller, hsuccess]
    cases hpublished : Poller.published? (s.poller.take t collected) t with
    | none =>
      rw [hpublished] at hshows
      simp [hshows.lastSuccess]
    | some r =>
      rw [hpublished] at hshows
      simp [hshows.lastSuccess]
  · rw [hpoller, hsuccess]
    simp

theorem serves_undergoAll {happenings : List Happening} (hs : s.poller.Serves capacity)
    (hfine : s.AllFine happenings) : (s.undergoAll happenings).poller.Serves capacity := by
  induction happenings generalizing s with
  | nil => exact hs
  | cons h happenings ih => exact ih (serves_undergo hs hfine.1) hfine.2

theorem lastSuccess_undergoAll (s : Service) (happenings : List Happening) :
    (s.undergoAll happenings).poller.lastSuccess = none
      ↔ s.poller.lastSuccess = none ∧ s.successes happenings = [] := by
  induction happenings generalizing s with
  | nil => simp [undergoAll, successes]
  | cons h happenings ih =>
    show ((s.undergo h).undergoAll happenings).poller.lastSuccess = none ↔ _
    rw [ih, lastSuccess_undergo, successes, List.append_eq_nil_iff, Option.toList_eq_nil_iff, and_assoc]

/-- **What is served agrees with itself**: from a new poller on, whatever happens while each poll that is
collected can be recorded. The time of the last success is there exactly when a poll has succeeded; before
that nothing is served. -/
theorem serves_consistently {interval : Binary64} {happenings : List Happening}
    (hnew : s.poller = { interval, history := Store.empty capacity }) (hfine : s.AllFine happenings) :
    (s.undergoAll happenings).poller.Consistent ∧
      (s.undergoAll happenings).poller.history.capacity = (Store.empty capacity).capacity ∧
      ((s.undergoAll happenings).poller.lastSuccess = none ↔ s.successes happenings = []) ∧
      (s.successes happenings = [] → (s.undergoAll happenings).poller.latest = [] ∧
        (s.undergoAll happenings).poller.history.series = []) := by
  have hstart : s.poller.Serves capacity := by
    rw [hnew]
    exact ⟨Store.shows_empty capacity, rfl, fun _ => ⟨rfl, rfl⟩⟩
  have hserves := serves_undergoAll hstart hfine
  have hsuccess : (s.undergoAll happenings).poller.lastSuccess = none ↔ s.successes happenings = [] := by
    rw [lastSuccess_undergoAll, hnew]
    exact and_iff_right rfl
  refine ⟨Poller.consistent_of_shows hserves.shows, hserves.limit, hsuccess, fun hnone => ?_⟩
  obtain ⟨hlatest, hhistory⟩ := hserves.unpolled (hsuccess.mpr hnone)
  exact ⟨hlatest, by rw [hhistory]; rfl⟩

/-- Two polls of a queue, a start, and a subscriber that comes between them. -/
def twoPolls : List Happening :=
  [.deed (pollAt 10000), .deed (.subscribe "a"), .deed (pollAt 12000), .move .start]

/-- The queue as it is collected at that time. -/
def sentOne (t : Timestamp) : Snapshot :=
  { interface := "e", handle := "1", rawHeader := "qdisc cake 1: dev e root", updatedAt := t
    totals := { sentBytes := 1 } }

theorem allFine_twoPolls : idle.AllFine twoPolls := by
  refine ⟨?_, nofun, ?_, nofun, trivial⟩
  · have hattempt : idle.attempt? (.deed (pollAt 10000)) = some (10000, .ok [sentOne 10000]) := by
      decide +kernel
    have hclock : Time.seconds 10000 = .ok (.ofNat 10) := by decide +kernel
    refine fine_of_attempt hattempt ⟨by decide, fun clock h => ?_⟩
    obtain rfl := Except.ok.inj (hclock.symm.trans h)
    decide +kernel
  · have hattempt : ((idle.perform (pollAt 10000)).perform (.subscribe "a")).attempt?
        (.deed (pollAt 12000)) = some (12000, .ok [sentOne 12000]) := by
      decide +kernel
    have hclock : Time.seconds 12000 = .ok (.ofNat 12) := by decide +kernel
    refine fine_of_attempt hattempt ⟨by decide, fun clock h => ?_⟩
    obtain rfl := Except.ok.inj (hclock.symm.trans h)
    decide +kernel

theorem serves_consistently_twice : idle.AllFine twoPolls ∧
    (idle.undergoAll twoPolls).poller.Consistent ∧
    (idle.undergoAll twoPolls).poller.history.series.map (·.1) = ["e"] := by
  obtain ⟨hconsistent, -⟩ := serves_consistently (s := idle) rfl allFine_twoPolls
  exact ⟨allFine_twoPolls, hconsistent, by decide +kernel⟩

end Service

end CakeMonitor
