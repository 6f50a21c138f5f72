import CakeMonitor.History.Store
import CakeMonitor.Proofs.Fallible
import CakeMonitor.Proofs.History.Ring

/-!
# One recorded poll

What recording a poll does to the store and to the snapshots when it raises nothing. Each interface
is looked up in the store as it was before the poll, since no two snapshots are of the same one.

* `rate`: the growth of a counter per second as a number; `growth_eq` ties it to the fallible one.
* `Store.advance`, `Store.derive`: the next track of an interface, and its snapshot with the rates.
* `Store.Updated`: all that an update of a track can lead to.
* `Store.observe_eq`, `Store.observeAll_spec`: a snapshot, and all of them.
* `Store.record_spec`: the whole poll; `Store.record_invariant` is what it keeps in any case.
-/

namespace CakeMonitor

/-! ## Rates -/

/-- The growth of a counter per second, zero when the counter is lower than before. -/
def rate (current previous : Int) (seconds : Binary64) : Binary64 :=
  if current < previous then .zero else (Binary64.ofRatio (current - previous) 1).div seconds

theorem Binary64.ofInt_eq {i : Int} {x : Binary64} (h : Binary64.ofInt i = .ok x) :
    x = Binary64.ofRatio i 1 := by
  unfold Binary64.ofInt at h
  cases hr : Binary64.ofRatio i 1 with
  | nan =>
    rw [hr] at h
    exact (Except.ok.inj h).symm
  | infinite s =>
    rw [hr] at h
    cases h
  | finite s m =>
    rw [hr] at h
    exact (Except.ok.inj h).symm

theorem growth_eq {current previous : Int} {seconds r : Binary64}
    (h : growth current previous seconds = .ok r) : r = rate current previous seconds := by
  unfold growth at h
  unfold rate
  by_cases hlt : current < previous
  · rw [if_pos hlt] at h ⊢
    exact (Except.ok.inj h).symm
  · rw [if_neg hlt] at h ⊢
    cases hx : Binary64.ofInt (current - previous) with
    | error e =>
      rw [hx] at h
      cases h
    | ok x =>
      rw [hx] at h
      replace h : x.quotient seconds = .ok r := h
      unfold Binary64.quotient at h
      split_ifs at h
      rw [← Binary64.ofInt_eq hx]
      exact (Except.ok.inj h).symm

/-- The integer part, zero where there is none. -/
def Binary64.whole (x : Binary64) : Int :=
  match x.truncate with
  | .ok i => i
  | .error _ => 0

/-! ## The next track -/

/-- The rates of a snapshot behind a track. -/
def Track.rates (track : Track) (now interval : Binary64) (x : Snapshot) : Rates where
  tx := rate x.txBytes track.txBytes (Store.elapsed now track.time interval)
  drops := rate x.totals.dropped track.dropped (Store.elapsed now track.time interval)
  avDelay := Tin.maxDelay .avDelay x.tins
  pkDelay := Tin.maxDelay .pkDelay x.tins

/-- The track with the snapshot as its last. -/
def Track.renewed (track : Track) (now interval : Binary64) (x : Snapshot) : Track where
  txBytes := x.txBytes
  dropped := x.totals.dropped
  time := now
  samples := track.samples.push { time := now.whole, rates := track.rates now interval x }

namespace Store

/-- The names of the interfaces that have a track. -/
def names (s : Store) : List Text := s.tracks.map (·.1)

/-- The track of an interface after a snapshot of it. -/
def advance (s : Store) (now interval : Binary64) (x : Snapshot) : Track :=
  match s.track? x.interface with
  | none => s.firstTrack now x
  | some track => track.renewed now interval x

/-- The snapshot with its rates, if the interface was seen before. -/
def derive (s : Store) (now interval : Binary64) (x : Snapshot) : Snapshot :=
  match s.track? x.interface with
  | none => x
  | some track => { x with rates := track.rates now interval x }

theorem interface_derive (s : Store) (now interval : Binary64) (x : Snapshot) :
    (s.derive now interval x).interface = x.interface := by
  unfold derive
  split <;> rfl

variable {s : Store} {now interval : Binary64}

/-- All that an update can lead to: it fails at the bytes, at the drops or at the clock, with those rates
written that come before, or it writes all of them and renews the track. -/
inductive Updated (s : Store) (now interval : Binary64) (x : Snapshot) (track : Track) :
    Outcome Snapshot → Prop
  | bytes {e : NumberError}
      (fails : growth x.txBytes track.txBytes (elapsed now track.time interval) = .error e) :
      Updated s now interval x track ⟨s, x, some e⟩
  | drops {tx : Binary64} {e : NumberError}
      (bytes : growth x.txBytes track.txBytes (elapsed now track.time interval) = .ok tx)
      (fails : growth x.totals.dropped track.dropped (elapsed now track.time interval) = .error e) :
      Updated s now interval x track ⟨s, { x with rates.tx := tx }, some e⟩
  | clock {tx drops : Binary64} {e : NumberError}
      (bytes : growth x.txBytes track.txBytes (elapsed now track.time interval) = .ok tx)
      (drops : growth x.totals.dropped track.dropped (elapsed now track.time interval) = .ok drops)
      (fails : now.truncate = .error e) :
      Updated s now interval x track ⟨s, { x with rates := track.rates now interval x }, some e⟩
  | renewed : Updated s now interval x track
      ⟨s.put x.interface (track.renewed now interval x),
        { x with rates := track.rates now interval x }, none⟩

theorem updated_update (s : Store) (now interval : Binary64) (x : Snapshot) (track : Track) :
    Updated s now interval x track (s.update now interval x track) := by
  unfold update
  cases htx : growth x.txBytes track.txBytes (elapsed now track.time interval) with
  | error e =>
    simp only [htx]
    exact .bytes htx
  | ok tx =>
    cases hdrops : growth x.totals.dropped track.dropped (elapsed now track.time interval) with
    | error e =>
      simp only [htx, hdrops]
      exact .drops htx hdrops
    | ok drops =>
      have hrates : track.rates now interval x
          = { tx, drops, avDelay := Tin.maxDelay .avDelay x.tins
              pkDelay := Tin.maxDelay .pkDelay x.tins } := by
        rw [Track.rates, ← growth_eq htx, ← growth_eq hdrops]
      cases htime : now.truncate with
      | error e =>
        simp only [htx, hdrops, ← hrates]
        exact .clock htx hdrops htime
      | ok time =>
        have hwhole : now.whole = time := by
          unfold Binary64.whole
          rw [htime]
        simp only [htx, hdrops, ← hrates, ← hwhole]
        exact .renewed

/-- An update that raises nothing writes all rates and renews the track. -/
theorem update_eq {x : Snapshot} {track : Track} (h : (s.update now interval x track).error = none) :
    s.update now interval x track
      = ⟨s.put x.interface (track.renewed now interval x),
          { x with rates := track.rates now interval x }, none⟩ := by
  have hupdated := updated_update s now interval x track
  generalize s.update now interval x track = outcome at h hupdated
  cases hupdated with
  | renewed => rfl
  | bytes | drops | clock => cases h

/-- **One snapshot**: its track goes on, and its rates are written. -/
theorem observe_eq {x : Snapshot} (h : (s.observe now interval x).error = none) :
    s.observe now interval x
      = ⟨s.put x.interface (s.advance now interval x), s.derive now interval x, none⟩ := by
  unfold observe at h ⊢
  unfold advance derive
  cases htrack : s.track? x.interface with
  | none => rfl
  | some track =>
    rw [htrack] at h
    exact update_eq h

/-! ## All snapshots of a poll -/

theorem advance_put {i : Text} {track : Track} {x : Snapshot} (h : x.interface ≠ i) :
    (s.put i track).advance now interval x = s.advance now interval x := by
  unfold advance
  rw [track?_put, if_neg (Ne.symm h)]
  rfl

theorem derive_put {i : Text} {track : Track} {x : Snapshot} (h : x.interface ≠ i) :
    (s.put i track).derive now interval x = s.derive now interval x := by
  unfold derive
  rw [track?_put, if_neg (Ne.symm h)]

theorem observeAll_cons {x : Snapshot} {xs : List Snapshot}
    (h : (s.observeAll now interval (x :: xs)).error = none) :
    ((s.put x.interface (s.advance now interval x)).observeAll now interval xs).error = none ∧
      s.observeAll now interval (x :: xs)
        = ⟨((s.put x.interface (s.advance now interval x)).observeAll now interval xs).store,
            s.derive now interval x ::
              ((s.put x.interface (s.advance now interval x)).observeAll now interval xs).stats,
            none⟩ := by
  have hx : (s.observe now interval x).error = none := by
    unfold observeAll at h
    rcases ho : s.observe now interval x with ⟨s₁, x₁, _ | e⟩
    · rfl
    · rw [ho] at h
      cases h
  have hall : s.observeAll now interval (x :: xs)
      = ⟨((s.put x.interface (s.advance now interval x)).observeAll now interval xs).store,
          s.derive now interval x ::
            ((s.put x.interface (s.advance now interval x)).observeAll now interval xs).stats,
          ((s.put x.interface (s.advance now interval x)).observeAll now interval xs).error⟩ := by
    rw [observeAll, observe_eq hx]
  have herror : ((s.put x.interface (s.advance now interval x)).observeAll now interval xs).error
      = none := by
    rw [hall] at h
    exact h
  rw [herror] at hall
  exact ⟨herror, hall⟩

/-- **All snapshots of a poll**: those of distinct interfaces do not get into each other's way. -/
theorem observeAll_spec {stats : List Snapshot}
    (h : (s.observeAll now interval stats).error = none)
    (distinct : (stats.map (·.interface)).Nodup) :
    (s.observeAll now interval stats).stats = stats.map (s.derive now interval) ∧
      ∀ i, (s.observeAll now interval stats).store.track? i
        = ((stats.find? (·.interface = i)).map (s.advance now interval)).or (s.track? i) := by
  induction stats generalizing s with
  | nil => exact ⟨rfl, fun i => rfl⟩
  | cons x xs ih =>
    obtain ⟨hnot, hdistinct⟩ := List.nodup_cons.mp distinct
    have hother : ∀ y ∈ xs, y.interface ≠ x.interface := by
      rintro y hy he
      exact hnot (List.mem_map.mpr ⟨y, hy, he⟩)
    obtain ⟨hxs, hall⟩ := observeAll_cons h
    obtain ⟨hstats, htrack⟩ := ih hxs hdistinct
    rw [hall]
    constructor
    · rw [hstats, List.map_cons]
      exact congrArg _ (List.map_congr_left fun y hy => derive_put (hother y hy))
    · intro i
      rw [htrack i, track?_put, List.find?_cons]
      by_cases hi : x.interface = i
      · have hnone : xs.find? (·.interface = i) = none := by
          rw [List.find?_eq_none]
          intro y hy
          simpa [hi] using hother y hy
        simp [hi, hnone]
      · have hadvance : (xs.find? (·.interface = i)).map
            ((s.put x.interface (s.advance now interval x)).advance now interval)
            = (xs.find? (·.interface = i)).map (s.advance now interval) := by
          refine Option.map_congr fun y hy => advance_put (hother y (List.mem_of_find?_eq_some hy))
        simp [hi, hadvance]

/-! ## What every poll keeps -/

theorem names_insert (i : Text) (track : Track) (ts : List (Text × Track)) :
    (insert i track ts).map (·.1) = if i ∈ ts.map (·.1) then ts.map (·.1) else ts.map (·.1) ++ [i] := by
  induction ts with
  | nil => rfl
  | cons t ts ih =>
    unfold insert
    by_cases ht : t.1 = i
    · simp [ht]
    · rw [if_neg ht, List.map_cons, List.map_cons, ih]
      by_cases hi : i ∈ ts.map (·.1)
      · rw [if_pos hi, if_pos (List.mem_cons_of_mem _ hi)]
      · have hnot : i ∉ t.1 :: ts.map (·.1) := by
          rw [List.mem_cons, not_or]
          exact ⟨Ne.symm ht, hi⟩
        rw [if_neg hi, if_neg hnot]
        rfl

theorem nodup_names_put {i : Text} {track : Track} (h : s.names.Nodup) :
    (s.put i track).names.Nodup := by
  unfold names put
  rw [names_insert]
  split_ifs with hi
  · exact h
  · rw [List.nodup_append]
    refine ⟨h, List.pairwise_singleton _ i, ?_⟩
    rintro j hj k hk rfl
    exact hi (List.mem_singleton.mp hk ▸ hj)

/-- An update renews the track, or leaves the store as it was. -/
theorem store_update (x : Snapshot) (track : Track) : (s.update now interval x track).store = s ∨
    ∃ renewed, (s.update now interval x track).store = s.put x.interface renewed := by
  have hupdated := updated_update s now interval x track
  generalize s.update now interval x track = outcome at hupdated ⊢
  cases hupdated with
  | renewed => exact Or.inr ⟨_, rfl⟩
  | bytes | drops | clock => exact Or.inl rfl

theorem store_observe (x : Snapshot) : (s.observe now interval x).store = s ∨
    ∃ track, (s.observe now interval x).store = s.put x.interface track := by
  unfold observe
  cases s.track? x.interface with
  | none => exact Or.inr ⟨_, rfl⟩
  | some track => exact store_update x track

/-- What each snapshot keeps, all of them keep, with an error or without. -/
theorem observeAll_invariant {P : Store → Prop}
    (hobserve : ∀ (s : Store) (x : Snapshot), P s → P (s.observe now interval x).store)
    (stats : List Snapshot) : ∀ {s : Store}, P s → P (s.observeAll now interval stats).store := by
  induction stats with
  | nil => intro s h; exact h
  | cons x xs ih =>
    intro s h
    have hx := hobserve s x h
    unfold observeAll
    rcases ho : s.observe now interval x with ⟨s₁, x₁, _ | e⟩
    · rw [ho] at hx
      exact ih hx
    · rw [ho] at hx
      exact hx

/-! ## The whole poll -/

theorem track?_prune (s : Store) (present : List Text) (i : Text) :
    (s.prune present).track? i = if i ∈ present then s.track? i else none := by
  unfold track? prune
  rw [List.find?_filter]
  split_ifs with hi
  · congr 2
    funext t
    by_cases ht : t.1 = i <;> simp [ht, hi]
  · rw [List.find?_eq_none.mpr]
    · rfl
    · intro t _ ht
      simp only [decide_eq_true_eq] at ht
      exact hi (ht.2 ▸ ht.1)

/-- What each snapshot and forgotten interfaces leave, a poll leaves. -/
theorem record_invariant {P : Store → Prop}
    (hobserve : ∀ (s : Store) (x : Snapshot), P s → P (s.observe now interval x).store)
    (hprune : ∀ (s : Store) (present : List Text), P s → P (s.prune present))
    (stats : List Snapshot) (h : P s) : P (s.record now interval stats).store := by
  have hall : P (s.observeAll now interval stats).store := observeAll_invariant hobserve stats h
  unfold record
  rcases ho : s.observeAll now interval stats with ⟨s₁, xs, _ | e⟩
  · rw [ho] at hall
    exact hprune s₁ _ hall
  · rw [ho] at hall
    exact hall

/-- What a renewed track and forgotten interfaces leave, a poll leaves. -/
theorem record_induct {P : Store → Prop}
    (hput : ∀ (s : Store) (i : Text) (track : Track), P s → P (s.put i track))
    (hprune : ∀ (s : Store) (present : List Text), P s → P (s.prune present))
    (stats : List Snapshot) (h : P s) : P (s.record now interval stats).store := by
  refine record_invariant (fun s x hs => ?_) hprune stats h
  rcases store_observe (s := s) x with hstore | ⟨track, hstore⟩
  · rw [hstore]
    exact hs
  · rw [hstore]
    exact hput s x.interface track hs

theorem capacity_record (stats : List Snapshot) :
    (s.record now interval stats).store.capacity = s.capacity :=
  record_induct (P := fun t => t.capacity = s.capacity) (fun _ _ _ h => h) (fun _ _ h => h) stats rfl

theorem nodup_names_record (stats : List Snapshot) (h : s.names.Nodup) :
    (s.record now interval stats).store.names.Nodup := by
  refine record_induct (P := fun t => t.names.Nodup) (fun _ _ _ => nodup_names_put) ?_ stats h
  intro t present ht
  exact ht.sublist (List.Sublist.map _ List.filter_sublist)

/-- A poll ends with the error of its snapshots. -/
theorem error_record (stats : List Snapshot) :
    (s.record now interval stats).error = (s.observeAll now interval stats).error := by
  unfold record
  rcases s.observeAll now interval stats with ⟨s₁, xs, _ | e⟩
  · rfl
  · rfl

/-- The interfaces of a poll are those with a snapshot in it. -/
theorem isSome_find?_interface (stats : List Snapshot) (i : Text) :
    (stats.find? (·.interface = i)).isSome = true ↔ i ∈ stats.map (·.interface) := by
  rw [List.find?_isSome, List.mem_map]
  simp only [decide_eq_true_eq]

theorem record_eq {stats : List Snapshot} (h : (s.record now interval stats).error = none)
    (distinct : (stats.map (·.interface)).Nodup) :
    s.record now interval stats
      = ⟨(s.observeAll now interval stats).store.prune (stats.map (·.interface)),
          stats.map (s.derive now interval), none⟩ := by
  rw [error_record] at h
  obtain ⟨hstats, -⟩ := observeAll_spec h distinct
  have hnames : (stats.map (s.derive now interval)).map (·.interface) = stats.map (·.interface) := by
    rw [List.map_map]
    exact List.map_congr_left fun x _ => interface_derive s now interval x
  unfold record
  rcases ho : s.observeAll now interval stats with ⟨s₁, xs, _ | e⟩
  · rw [ho] at hstats
    replace hstats : xs = stats.map (s.derive now interval) := hstats
    rw [hstats]
    simp only [hnames]
  · rw [ho] at h
    cases h

/-- **A recorded poll**: the interfaces of the poll go on, the others are forgotten, and the rates are
written into the snapshots of those that were seen before. -/
theorem record_spec {stats : List Snapshot} (h : (s.record now interval stats).error = none)
    (distinct : (stats.map (·.interface)).Nodup) :
    (s.record now interval stats).stats = stats.map (s.derive now interval) ∧
      ∀ i, (s.record now interval stats).store.track? i
        = (stats.find? (·.interface = i)).map (s.advance now interval) := by
  have hrecord := record_eq h distinct
  rw [error_record] at h
  obtain ⟨-, htrack⟩ := observeAll_spec h distinct
  rw [hrecord]
  refine ⟨rfl, fun i => ?_⟩
  rw [track?_prune, htrack i]
  have hnames := isSome_find?_interface stats i
  cases hfind : stats.find? (·.interface = i) with
  | none =>
    rw [hfind] at hnames
    rw [if_neg (mt hnames.mpr nofun)]
    rfl
  | some x =>
    rw [hfind] at hnames
    rw [if_pos (hnames.mp rfl)]
    rfl

/-! ## The series -/

/-- With one track for each interface, a track is found under its name. -/
theorem track?_eq_some_iff (h : s.names.Nodup) {i : Text} {track : Track} :
    s.track? i = some track ↔ (i, track) ∈ s.tracks := by
  unfold names at h
  unfold track?
  generalize s.tracks = tracks at h ⊢
  induction tracks with
  | nil => simp
  | cons t ts ih =>
    obtain ⟨hnot, hts⟩ := List.nodup_cons.mp h
    rw [List.find?_cons, List.mem_cons]
    by_cases ht : t.1 = i
    · have hothers : (i, track) ∉ ts := fun hmem =>
        hnot (List.mem_map.mpr ⟨_, hmem, ht.symm⟩)
      simp [ht, hothers, Prod.ext_iff, eq_comm]
    · have hne : (i, track) ≠ t := fun he => ht (by rw [← he])
      have hskip : decide (t.1 = i) = false := decide_eq_false ht
      rw [hskip, ih hts, or_iff_right hne]

/-- The series are those of the tracks with samples. -/
theorem mem_series_iff (h : s.names.Nodup) {i : Text} {samples : List Sample} :
    (i, samples) ∈ s.series ↔ ∃ track, s.track? i = some track ∧ track.samples.count ≠ 0 ∧
      samples = track.samples.toList := by
  unfold series
  simp only [List.mem_map, List.mem_filter, track?_eq_some_iff h]
  constructor
  · rintro ⟨⟨j, track⟩, ⟨hmem, hcount⟩, he⟩
    obtain ⟨rfl, rfl⟩ := Prod.mk.inj he
    exact ⟨track, hmem, by simpa using hcount, rfl⟩
  · rintro ⟨track, hmem, hcount, rfl⟩
    exact ⟨(i, track), ⟨hmem, by simpa using hcount⟩, rfl⟩

theorem series_sublist (s : Store) : List.Sublist (s.series.map (·.1)) s.names := by
  unfold series names
  rw [List.map_map]
  exact List.filter_sublist.map _

end Store

end CakeMonitor
