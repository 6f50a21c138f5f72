import CakeMonitor.Proofs.History.Failure
import Mathlib.Logic.Function.Iterate

/-!
# A recording, one write after another

A recording changes the store many times: a new interface is put down, a sample is pushed, the counters
behind it are renewed, an interface that is gone is forgotten. Whoever looked at the store in between
would see a part of the poll. Here each of these writes is a step of its own.

* `Stage`, `Recording`: how far a recording has come, and the store as it is by then.
* `Recording.step`: the next write.
* `Recording.finish`: what the remaining steps lead to; `Recording.finish_step` keeps it.
* `Recording.exists_iterate_step`: all steps together are `Store.attempt`.
-/

namespace CakeMonitor

/-! ## Writes to a store -/

namespace Store

/-- Change the track of an interface, if it has one. -/
def alter (s : Store) (i : Text) (f : Track → Track) : Store :=
  match s.track? i with
  | none => s
  | some track => s.put i (f track)

/-- Forget an interface. -/
def forget (s : Store) (i : Text) : Store := { s with tracks := s.tracks.filter fun t => t.1 ≠ i }

/-- Forget those of the interfaces that are not present. -/
def forgetAbsent (s : Store) (present names : List Text) : Store :=
  names.foldl (fun s i => if i ∈ present then s else s.forget i) s

variable {s : Store}

theorem insert_insert (i : Text) (t u : Track) (ts : List (Text × Track)) :
    insert i u (insert i t ts) = insert i u ts := by
  induction ts with
  | nil => simp [insert]
  | cons x xs ih => by_cases hx : x.1 = i <;> simp [insert, hx, ih]

theorem put_put (s : Store) (i : Text) (t u : Track) : (s.put i t).put i u = s.put i u := by
  unfold put
  rw [insert_insert]

theorem alter_eq {i : Text} {track : Track} (h : s.track? i = some track) (f : Track → Track) :
    s.alter i f = s.put i (f track) := by
  unfold alter
  rw [h]

theorem alter_alter {i : Text} {track : Track} (h : s.track? i = some track) (f g : Track → Track) :
    (s.alter i f).alter i g = s.put i (g (f track)) := by
  have hput : (s.put i (f track)).track? i = some (f track) := by rw [track?_put, if_pos rfl]
  rw [alter_eq h, alter_eq hput, put_put]

/-- Forgetting goes through the names one by one, and leaves what is present or not among them. -/
theorem tracks_forgetAbsent (s : Store) (present names : List Text) :
    s.forgetAbsent present names
      = { s with tracks := s.tracks.filter fun t => t.1 ∈ present ∨ t.1 ∉ names } := by
  unfold forgetAbsent
  induction names generalizing s with
  | nil => simp
  | cons i names ih =>
    rw [List.foldl_cons, ih]
    by_cases hi : i ∈ present
    · rw [if_pos hi]
      congr 1
      refine List.filter_congr fun t _ => ?_
      by_cases ht : t.1 = i
      · simp [ht, hi]
      · simp [ht]
    · rw [if_neg hi, forget, List.filter_filter]
      congr 1
      refine List.filter_congr fun t _ => ?_
      by_cases ht : t.1 = i
      · simp [ht, hi]
      · simp [ht]

/-- Going through all interfaces of the store is the pruning of a recording. -/
theorem forgetAbsent_names (s : Store) (present : List Text) :
    s.forgetAbsent present s.names = s.prune present := by
  rw [tracks_forgetAbsent, prune]
  congr 1
  refine List.filter_congr fun t ht => ?_
  have hname : t.1 ∈ s.names := List.mem_map_of_mem ht
  simp [hname]

/-! ## What is left of a recording -/

/-- An observation writes to a snapshot at most its rates. -/
theorem interface_observe (s : Store) (now interval : Binary64) (x : Snapshot) :
    (s.observe now interval x).stats.interface = x.interface := by
  unfold observe
  cases s.track? x.interface with
  | none => rfl
  | some track =>
    show (s.update now interval x track).stats.interface = x.interface
    have hupdated := updated_update s now interval x track
    generalize s.update now interval x track = outcome at hupdated ⊢
    cases hupdated <;> rfl

theorem interfaces_observeAll (now interval : Binary64) (stats : List Snapshot) (s : Store) :
    (s.observeAll now interval stats).stats.map (·.interface) = stats.map (·.interface) := by
  induction stats generalizing s with
  | nil => rfl
  | cons x xs ih =>
    have hx := s.interface_observe now interval x
    unfold observeAll
    rcases ho : s.observe now interval x with ⟨s₁, y, _ | e⟩
    · rw [ho] at hx
      exact congrArg₂ List.cons hx (ih s₁)
    · rw [ho] at hx
      exact congrArg (· :: xs.map (·.interface)) hx

/-- The store after an attempt of which these snapshots are left. -/
def attemptRest (s : Store) (a : Attempt) (rest : List Snapshot) : Store :=
  match s.observeAll a.clock a.interval rest with
  | ⟨s, _, none⟩ => s.prune a.names
  | ⟨s, _, some _⟩ => s

theorem attemptRest_stats (s : Store) (a : Attempt) : s.attemptRest a a.stats = (s.attempt a).store := by
  have hnames := interfaces_observeAll a.clock a.interval a.stats s
  unfold attemptRest attempt record
  rcases ho : s.observeAll a.clock a.interval a.stats with ⟨s₁, stats, _ | e⟩
  · rw [ho] at hnames
    replace hnames : stats.map (·.interface) = a.names := hnames
    rw [← hnames]
  · rfl

theorem attemptRest_cons (s : Store) (a : Attempt) (x : Snapshot) (rest : List Snapshot) :
    s.attemptRest a (x :: rest) = match s.observe a.clock a.interval x with
      | ⟨s, _, none⟩ => s.attemptRest a rest
      | ⟨s, _, some _⟩ => s := by
  unfold attemptRest
  rw [observeAll]
  rcases ho : s.observe a.clock a.interval x with ⟨s₁, y, _ | e⟩
  · rcases hr : s₁.observeAll a.clock a.interval rest with ⟨s₂, ys, _ | e⟩
    · simp only [hr]
    · simp only [hr]
  · rfl

end Store

/-! ## Steps -/

/-- How far a recording has come. -/
inductive Stage where
  /-- these snapshots have yet to be observed -/
  | observing (rest : List Snapshot)
  /-- the rates of a snapshot are written, and the sample with them is to be pushed -/
  | pushing (x : Snapshot) (rest : List Snapshot)
  /-- the sample is pushed, and the counters behind it are to be renewed -/
  | renewing (x : Snapshot) (rest : List Snapshot)
  /-- these interfaces have yet to be looked at, and forgotten when they are gone -/
  | pruning (names : List Text)
  /-- everything is written, or an error has broken the recording off -/
  | ended
  deriving DecidableEq

/-- A store while something is recorded. -/
structure Recording where
  store : Store
  stage : Stage

namespace Recording

/-- The track with the sample of a snapshot, and the counters of the poll before. -/
def withSample (a : Attempt) (x : Snapshot) (track : Track) : Track :=
  { track with samples := track.samples.push { time := a.clock.whole, rates := x.rates } }

/-- The track with the counters of a snapshot. -/
def withCounters (a : Attempt) (x : Snapshot) (track : Track) : Track :=
  { track with txBytes := x.txBytes, dropped := x.totals.dropped, time := a.clock }

/-- The recording of an attempt before its first step. -/
def begin (s : Store) (a : Attempt) : Recording := ⟨s, .observing a.stats⟩

/-- The next step: an interface is seen for the first time, or its rates are written, its sample is
pushed and its counters are renewed; or an interface that is gone is forgotten. -/
def step (a : Attempt) (r : Recording) : Recording :=
  match r.stage with
  | .observing [] => { r with stage := .pruning r.store.names }
  | .observing (x :: rest) =>
    match r.store.track? x.interface with
    | none => ⟨r.store.put x.interface (r.store.firstTrack a.clock x), .observing rest⟩
    | some track =>
      match r.store.update a.clock a.interval x track with
      | ⟨_, x, none⟩ => { r with stage := .pushing x rest }
      | ⟨_, _, some _⟩ => { r with stage := .ended }
  | .pushing x rest => ⟨r.store.alter x.interface (withSample a x), .renewing x rest⟩
  | .renewing x rest => ⟨r.store.alter x.interface (withCounters a x), .observing rest⟩
  | .pruning [] => { r with stage := .ended }
  | .pruning (i :: names) => ⟨if i ∈ a.names then r.store else r.store.forget i, .pruning names⟩
  | .ended => r

/-- The store that the remaining steps lead to. -/
def finish (a : Attempt) (r : Recording) : Store :=
  match r.stage with
  | .observing rest => r.store.attemptRest a rest
  | .pushing x rest =>
    ((r.store.alter x.interface (withSample a x)).alter x.interface (withCounters a x)).attemptRest a rest
  | .renewing x rest => (r.store.alter x.interface (withCounters a x)).attemptRest a rest
  | .pruning names => r.store.forgetAbsent a.names names
  | .ended => r.store

theorem finish_begin (s : Store) (a : Attempt) : (begin s a).finish a = (s.attempt a).store :=
  s.attemptRest_stats a

/-- An update whose sample is pushed and whose counters are renewed one after the other. -/
theorem finish_pushing {s : Store} {a : Attempt} {x : Snapshot} {track : Track}
    (htrack : s.track? x.interface = some track)
    (hupdate : (s.update a.clock a.interval x track).error = none) (rest : List Snapshot) :
    finish a ⟨s, .pushing (s.update a.clock a.interval x track).stats rest⟩
      = (s.update a.clock a.interval x track).store.attemptRest a rest := by
  rw [Store.update_eq hupdate]
  unfold finish
  dsimp only
  rw [Store.alter_alter htrack]
  rfl

/-- **No step changes what the recording leads to.** -/
theorem finish_step (a : Attempt) (r : Recording) : (r.step a).finish a = r.finish a := by
  rcases r with ⟨s, stage⟩
  cases stage with
  | observing rest =>
    cases rest with
    | nil => exact s.forgetAbsent_names a.names
    | cons x rest =>
      have hcons : finish a ⟨s, .observing (x :: rest)⟩ = _ := s.attemptRest_cons a x rest
      rw [hcons]
      unfold step Store.observe
      dsimp only
      cases htrack : s.track? x.interface with
      | none => rfl
      | some track =>
        have hpushing (h : (s.update a.clock a.interval x track).error = none) :=
          finish_pushing htrack h rest
        have hstore (h : (s.update a.clock a.interval x track).error ≠ none) :=
          Store.store_update_of_error h
        dsimp only
        rcases hupdate : s.update a.clock a.interval x track with ⟨s₁, y, _ | e⟩
        · rw [hupdate] at hpushing
          exact hpushing rfl
        · rw [hupdate] at hstore
          exact (hstore (Option.some_ne_none e)).symm
  | pushing x rest => rfl
  | renewing x rest => rfl
  | pruning names =>
    cases names with
    | nil => rfl
    | cons i names => rfl
  | ended => rfl

/-! ## All steps -/

theorem finish_iterate_step (a : Attempt) (n : Nat) (r : Recording) :
    ((step a)^[n] r).finish a = r.finish a := by
  induction n generalizing r with
  | zero => rfl
  | succ n ih => rw [Function.iterate_succ_apply, ih, finish_step]

/-- After some steps the recording is over. -/
def Ends (a : Attempt) (r : Recording) : Prop := ∃ n, ((step a)^[n] r).stage = .ended

variable {a : Attempt}

theorem ends_of_step {r : Recording} (h : Ends a (r.step a)) : Ends a r := by
  obtain ⟨n, hn⟩ := h
  exact ⟨n + 1, hn⟩

theorem ends_pruning (names : List Text) (s : Store) : Ends a ⟨s, .pruning names⟩ := by
  induction names generalizing s with
  | nil => exact ⟨1, rfl⟩
  | cons i names ih => exact ends_of_step (ih _)

theorem ends_observing (rest : List Snapshot) (s : Store) : Ends a ⟨s, .observing rest⟩ := by
  induction rest generalizing s with
  | nil => exact ends_of_step (ends_pruning s.names s)
  | cons x rest ih =>
    -- the interface is new, or its update fails, or its sample is pushed and its counters are renewed
    refine ends_of_step ?_
    unfold step
    dsimp only
    cases s.track? x.interface with
    | none => exact ih _
    | some track =>
      dsimp only
      rcases s.update a.clock a.interval x track with ⟨_, y, _ | e⟩
      · exact ends_of_step (ends_of_step (ih _))
      · exact ⟨0, rfl⟩

/-- **All steps together are the attempt.** -/
theorem exists_iterate_step (s : Store) (a : Attempt) :
    ∃ n, (step a)^[n] (begin s a) = ⟨(s.attempt a).store, .ended⟩ := by
  obtain ⟨n, hended⟩ := ends_observing (a := a) a.stats s
  have hfinish := (finish_iterate_step a n (begin s a)).trans (finish_begin s a)
  refine ⟨n, ?_⟩
  change ((step a)^[n] (begin s a)).stage = .ended at hended
  generalize (step a)^[n] (begin s a) = r at hended hfinish ⊢
  obtain ⟨store, stage⟩ := r
  subst hended
  rw [← hfinish]
  rfl

end Recording

end CakeMonitor
