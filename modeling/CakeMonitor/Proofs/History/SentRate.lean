import CakeMonitor.Proofs.History.Observations
import CakeMonitor.Proofs.Report.SentTotal

/-!
# The rate of the byte total

Between two polls an interface has sent as much as the byte totals of its two reports say, unless one of
them is zero: a total of zero counts as none, and the bytes of the tins stand in for it. A packet is counted
by its tin when it is queued and by the byte total when it is sent, so at the beginning the two differ.

* `Store.rate_behind`: the rate that a poll writes behind another one.
* `Store.rate_of_reports`: the same from the two reports.
* `Store.rate_of_waiting`: a packet that waits during the first poll is never seen to be sent.
-/

namespace CakeMonitor

open Report (sentTotal)

/-- The bytes that a rate is made of are the byte total, or those of the tins when that is zero. -/
theorem Snapshot.txBytes_eq (x : Snapshot) :
    x.txBytes = if x.totals.sentBytes ≠ 0 then x.totals.sentBytes else x.tinTotal .bytes := rfl

theorem mem_of_filter {stats : List Snapshot} {i : Text} {x : Snapshot}
    (h : stats.filter (·.interface = i) = [x]) : x ∈ stats ∧ x.interface = i := by
  have hx : x ∈ stats.filter (·.interface = i) := by rw [h]; exact List.mem_singleton_self x
  simpa using hx

/-- The only snapshot of an interface is the last one of it. -/
theorem seenAfter_of_filter {seen : Text → Option Counters} {stats : List Snapshot} {i : Text}
    {x : Snapshot} (h : stats.filter (·.interface = i) = [x]) : seenAfter seen stats i = some x.counters := by
  obtain ⟨front, back, rfl, -, hx, hback⟩ := List.filter_eq_cons_iff.mp h
  obtain rfl : x.interface = i := of_decide_eq_true hx
  refine seenAfter_of_last fun hmem => ?_
  obtain ⟨y, hy, hinterface⟩ := List.mem_map.mp hmem
  exact List.filter_eq_nil_iff.mp hback y hy (decide_eq_true hinterface)

/-- No snapshot of the interface is in front of the only one. -/
theorem not_mem_take_of_filter {stats : List Snapshot} {i : Text} {y : Snapshot}
    (h : stats.filter (·.interface = i) = [y]) {k : Nat} (hk : stats[k]? = some y) :
    i ∉ (stats.take k).map (·.interface) := by
  obtain ⟨hlt, hget⟩ := List.getElem?_eq_some_iff.mp hk
  obtain ⟨-, hy⟩ := mem_of_filter h
  have hsplit : stats.take k ++ y :: stats.drop (k + 1) = stats := by
    rw [← hget, List.cons_getElem_drop_succ, List.take_append_drop]
  rw [← hsplit, List.filter_append, List.filter_cons, if_pos (decide_eq_true hy)] at h
  have hlength := congrArg List.length h
  rw [List.length_append, List.length_cons, List.length_singleton] at hlength
  have hnone : (stats.take k).filter (·.interface = i) = [] := List.length_eq_zero_iff.mp (by omega)
  intro hmem
  obtain ⟨z, hz, hinterface⟩ := List.mem_map.mp hmem
  exact List.filter_eq_nil_iff.mp hnone z hz (decide_eq_true hinterface)

namespace Store

variable {s : Store} {p q : Attempt} {i : Text} {x y : Snapshot}

/-- What is remembered of an interface behind a poll with one snapshot of it. -/
theorem track?_attempt (fine : (s.attempt p).error = none)
    (one : p.stats.filter (·.interface = i) = [x]) {track : Track}
    (h : (s.attempt p).store.track? i = some track) :
    track.txBytes = x.txBytes ∧ track.time = p.clock := by
  have hpresent : i ∈ p.stats.map (·.interface) := List.mem_map.mpr ⟨x, mem_of_filter one⟩
  have hstore : (s.attempt p).store = _ := record_store fine
  rw [hstore, track?_prune, if_pos hpresent] at h
  have htime := track?_advanceAll h
  rw [if_pos hpresent] at htime
  have hseen := congrFun (seen_advanceAll s p.clock p.interval p.stats) i
  rw [seenAfter_of_filter one, seen, h] at hseen
  exact ⟨congrArg Counters.txBytes (Option.some.inj hseen), htime⟩

/-- **The rate that a poll writes behind another one** is the growth of the bytes between the two, for the
time between their clocks. -/
theorem rate_behind (fine₁ : (s.attempt p).error = none)
    (fine₂ : ((s.attempt p).store.attempt q).error = none)
    (one₁ : p.stats.filter (·.interface = i) = [x]) (one₂ : q.stats.filter (·.interface = i) = [y])
    {k : Nat} (hk : q.stats[k]? = some y) :
    ∃ z, ((s.attempt p).store.attempt q).stats[k]? = some z ∧
      z.rates.tx = rate y.txBytes x.txBytes (elapsed q.clock p.clock q.interval) := by
  obtain ⟨-, hinterface⟩ := mem_of_filter one₂
  -- no snapshot in front of this one is of its interface, so its track is still the one from the first poll
  have hnot := not_mem_take_of_filter one₂ hk
  refine ⟨_, record_stats fine₂ hk, ?_⟩
  have hknown : ((s.attempt p).store.advanceAll q.clock q.interval (q.stats.take k)).track? i ≠ none := by
    rw [← Option.isSome_iff_ne_none, isSome_track?_advanceAll]
    have hnames : i ∈ (s.attempt p).store.names ↔ i ∈ p.stats.map (·.interface) := mem_names_record fine₁
    exact .inr (hnames.mpr (List.mem_map.mpr ⟨x, mem_of_filter one₁⟩))
  obtain ⟨track, htrack⟩ := Option.ne_none_iff_exists'.mp hknown
  have hbefore := track?_advanceAll htrack
  rw [if_neg hnot] at hbefore
  obtain ⟨hbytes, htime⟩ := track?_attempt fine₁ one₁ hbefore
  unfold derive
  rw [hinterface, htrack]
  show rate y.txBytes track.txBytes (elapsed q.clock track.time q.interval) = _
  rw [hbytes, htime]

/-- The byte total of an interface with one snapshot is the one in the report. -/
theorem sentBytes_of_filter {t : Timestamp} {report : Text} {stats : List Snapshot}
    (h : Report.snapshots t report = .ok stats) (one : stats.filter (·.interface = i) = [x]) :
    x.totals.sentBytes = sentTotal report i := by
  have htotal := Report.sentBytes_snapshots h i
  rw [one] at htotal
  simpa using htotal

/-- **The rate of two reports**: a byte total counts unless it is zero, and then the bytes of the tins
count instead. Where no byte total is zero while its tins count bytes, the rate is the growth of the byte
total. -/
theorem rate_of_reports {t₁ t₂ : Timestamp} {first second : Text}
    (read₁ : Report.snapshots t₁ first = .ok p.stats) (read₂ : Report.snapshots t₂ second = .ok q.stats)
    (fine₁ : (s.attempt p).error = none) (fine₂ : ((s.attempt p).store.attempt q).error = none)
    (one₁ : p.stats.filter (·.interface = i) = [x]) (one₂ : q.stats.filter (·.interface = i) = [y])
    {k : Nat} (hk : q.stats[k]? = some y) :
    ∃ z, ((s.attempt p).store.attempt q).stats[k]? = some z ∧
      z.rates.tx = rate y.txBytes x.txBytes (elapsed q.clock p.clock q.interval) ∧
      x.txBytes = (if sentTotal first i ≠ 0 then sentTotal first i else x.tinTotal .bytes) ∧
      y.txBytes = (if sentTotal second i ≠ 0 then sentTotal second i else y.tinTotal .bytes) ∧
      ((sentTotal first i = 0 → x.tinTotal .bytes = 0) →
        (sentTotal second i = 0 → y.tinTotal .bytes = 0) →
          z.rates.tx = rate (sentTotal second i) (sentTotal first i)
            (elapsed q.clock p.clock q.interval)) := by
  obtain ⟨z, hz, hrate⟩ := rate_behind fine₁ fine₂ one₁ one₂ hk
  have hx := x.txBytes_eq
  have hy := y.txBytes_eq
  rw [sentBytes_of_filter read₁ one₁] at hx
  rw [sentBytes_of_filter read₂ one₂] at hy
  refine ⟨z, hz, hrate, hx, hy, fun hfirst hsecond => ?_⟩
  have hkeep {n tins : Int} (h : n = 0 → tins = 0) : (if n ≠ 0 then n else tins) = n := by
    by_cases hn : n = 0
    · simp [hn, h hn]
    · simp [hn]
  rw [hrate, hx, hy, hkeep hfirst, hkeep hsecond]

/-- The report of one queue with those totals of bytes and packets, and that many bytes in its only tin. -/
def oneTin (sent packets tin : Text) : Text :=
  ("qdisc cake 1: dev eth0 root\n Sent " : Text) ++ sent ++ (" bytes " : Text) ++ packets
    ++ (" pkt\n  Tin 0\n  bytes " : Text) ++ tin ++ ("\n" : Text)

/-- The snapshot of that report. -/
def oneTinSnapshot (sent packets tin : Int) : Snapshot where
  interface := "eth0"
  handle := "1"
  rawHeader := "qdisc cake 1: dev eth0 root"
  totals := { sentBytes := sent, sentPkts := packets }
  tins := [{ name := "Tin 0", counters := { bytes := tin } }]

/-- A hundred and fifty bytes more in the byte total, and four thousand more in the tin. -/
theorem rate_of_reports_oneTin :
    let p : Attempt := ⟨.ofNat 10, .ofNat 1, [oneTinSnapshot 100 1 5000]⟩
    let q : Attempt := ⟨.ofNat 11, .ofNat 1, [oneTinSnapshot 250 2 9000]⟩
    ∃ z, (((empty 2).attempt p).store.attempt q).stats[0]? = some z ∧ z.rates.tx = .ofNat 150 := by
  intro p q
  have read₁ : Report.snapshots 0 (oneTin "100" "1" "5000") = .ok p.stats := by decide +kernel
  have read₂ : Report.snapshots 0 (oneTin "250" "2" "9000") = .ok q.stats := by decide +kernel
  have fine₁ : ((empty 2).attempt p).error = none := by decide +kernel
  have fine₂ : (((empty 2).attempt p).store.attempt q).error = none := by decide +kernel
  have one₁ : p.stats.filter (·.interface = ("eth0" : Text)) = [oneTinSnapshot 100 1 5000] := by decide
  have one₂ : q.stats.filter (·.interface = ("eth0" : Text)) = [oneTinSnapshot 250 2 9000] := by decide
  obtain ⟨z, hz, -, -, -, hrate⟩ := rate_of_reports read₁ read₂ fine₁ fine₂ one₁ one₂ (k := 0) rfl
  have hfirst : sentTotal (oneTin "100" "1" "5000") "eth0" = 100 := by decide +kernel
  have hsecond : sentTotal (oneTin "250" "2" "9000") "eth0" = 250 := by decide +kernel
  have hsent := hrate (by simp [hfirst]) (by simp [hsecond])
  rw [hfirst, hsecond] at hsent
  exact ⟨z, hz, hsent.trans (by decide +kernel)⟩

/-- A packet waits during the first poll and is sent before the second: its tin has counted it already, so
the rate is zero, where the byte total has grown by the whole packet in a second. -/
theorem rate_of_waiting :
    let p : Attempt := ⟨.ofNat 10, .ofNat 1, [oneTinSnapshot 0 0 1514]⟩
    let q : Attempt := ⟨.ofNat 11, .ofNat 1, [oneTinSnapshot 1514 1 1514]⟩
    Report.snapshots 0 (oneTin "0" "0" "1514") = .ok p.stats ∧
      Report.snapshots 0 (oneTin "1514" "1" "1514") = .ok q.stats ∧
      sentTotal (oneTin "0" "0" "1514") "eth0" = 0 ∧ sentTotal (oneTin "1514" "1" "1514") "eth0" = 1514 ∧
      (((empty 2).attempt p).store.attempt q).error = none ∧
      (((empty 2).attempt p).store.attempt q).stats.map (·.rates.tx) = [.zero] ∧
      rate 1514 0 (elapsed q.clock p.clock q.interval) = .ofNat 1514 := by
  decide +kernel

end Store

end CakeMonitor
