import CakeMonitor.Proofs.MultiQueue.Accounting
import CakeMonitor.Proofs.MultiQueue.Nested
import CakeMonitor.Proofs.Report.WellFormed
import Mathlib.Algebra.Order.BigOperators.Group.List

/-!
# Merging keeps snapshots well formed

A merged queue adds counters that are not negative, takes its options from a child or from its parent,
and has no rates. Its memory and its backlogs are printed sums, and what is read off them is the sum of
what is read off the children.

* `sound_mergeQueues`, `sound_gives`: a merge of sound queues is sound.
* `AddsUp`, `SizesAdded`: the sizes of a queue are those of others added up.
* `Origin.Adds`: so it is for each output that a merge puts together.
* `Report.every_snapshot_well_formed`: every snapshot of every report.
-/

namespace CakeMonitor

namespace MultiQueue

theorem nonNegative_sumOf {α : Type} {f : α → Int} {l : List α} (h : ∀ a ∈ l, 0 ≤ f a) :
    0 ≤ sumOf (l.map f) :=
  List.sum_nonneg (List.forall_mem_map.mpr h)

theorem le_foldl_max (l : List Int) (m : Int) : m ≤ l.foldl max m := by
  induction l generalizing m with
  | nil => exact Int.le_refl m
  | cons n l ih => exact (le_max_left m n).trans (ih (max m n))

/-! ## Counters -/

theorem nonNegative_mergedTin {base : Tin} {column : List Tin} (backlog : Text)
    (hbase : base.counters.NonNegative) (hcolumn : ∀ t ∈ column, t.counters.NonNegative) :
    (mergedTin base column backlog).counters.NonNegative := by
  intro c
  show 0 ≤ (TinCounters.ofFn _).get c
  rw [TinCounters.get_ofFn]
  cases c with
  | maxLen => exact (hbase .maxLen).trans (le_foldl_max _ _)
  | quantum => exact hbase .quantum
  | pkts => exact nonNegative_sumOf fun t ht => hcolumn t ht .pkts
  | _ => exact nonNegative_sumOf fun t ht => hcolumn t ht _

theorem nonNegative_mergeTins {tables : List (List Tin)} {tins : List Tin}
    (h : mergeTins tables = .ok tins)
    (htables : ∀ table ∈ tables, ∀ t ∈ table, t.counters.NonNegative) :
    ∀ t ∈ tins, t.counters.NonNegative := by
  obtain ⟨hlength, hcolumns⟩ := getElem?_mergeTins h
  intro t ht
  obtain ⟨i, hi⟩ := List.mem_iff_getElem?.mp ht
  have hbound : i < (tables.headD []).length := by
    rw [← hlength]
    exact (List.getElem?_eq_some_iff.mp hi).1
  have hbase := List.getElem?_eq_getElem hbound
  have hmerge := hcolumns i _ t hbase hi
  rw [mergeColumn_eq] at hmerge
  obtain ⟨backlog, -, rfl⟩ := map_eq_ok.mp hmerge
  refine nonNegative_mergedTin backlog ?_ fun t ht => ?_
  · cases tables with
    | nil => exact absurd hbound (Nat.not_lt_zero i)
    | cons table tables => exact htables table List.mem_cons_self _ (List.getElem_mem hbound)
  · obtain ⟨table, htable, ht⟩ := List.mem_filterMap.mp ht
    exact htables table htable t (List.mem_of_getElem? ht)

/-! ## Merged queues -/

theorem sound_identityOnly {parent : Snapshot} (h : parent.Sound) : (identityOnly parent).Sound := by
  refine ⟨⟨Totals.nonNegative_empty, List.forall_mem_nil _, rfl⟩, fun k => ?_⟩
  cases k with
  | direction => exact h.options .direction
  | _ => exact Options.known_default _

/-- **A merge of sound queues is sound.** -/
theorem sound_mergeQueues {parent s : Snapshot} {children : List Snapshot} (hparent : parent.Sound)
    (hchildren : ∀ c ∈ children, c.Sound) (h : mergeQueues parent children = .ok s) : s.Sound := by
  have htotals : s.totals.NonNegative := by
    intro t
    rw [total_mergeQueues h]
    exact nonNegative_sumOf fun c hc => (hchildren c hc).totals t
  cases children with
  | nil =>
    obtain rfl := Except.ok.inj h
    exact sound_identityOnly hparent
  | cons first rest =>
    obtain ⟨backlogBytes, memoryUsed, tins, -, -, htins, rfl⟩ := mergeQueues_cons h
    have hfirst := hchildren first List.mem_cons_self
    have htables : ∀ t ∈ tins, t.counters.NonNegative :=
      nonNegative_mergeTins htins (List.forall_mem_map.mpr fun c hc => (hchildren c hc).tins)
    exact ⟨⟨htotals, htables, hfirst.rates⟩, hfirst.options⟩

theorem sound_children {blocks : List Block} (h : ∀ b ∈ blocks, b.snapshot.Sound) (k : Key) :
    ∀ c ∈ children blocks k, c.Sound :=
  List.forall_mem_map.mpr fun b hb => h b (List.mem_of_mem_filter hb)

theorem sound_gives {blocks : List Block} (h : ∀ b ∈ blocks, b.snapshot.Sound) {o : Origin}
    {s : Snapshot} (hgives : Gives blocks o s) : s.Sound := by
  cases hgives with
  | kept block _ => exact h _ (List.mem_of_getElem? block)
  | merged block _ _ merge =>
    exact sound_mergeQueues (h _ (List.mem_of_getElem? block)) (sound_children h _) merge

/-! ## Sums of sizes -/

/-- The size says the sum of the bytes that the sizes say. -/
def AddsUp (sizes : List Text) (t : Text) : Prop :=
  ∃ bytes, sizes.mapM Size.read = .ok bytes ∧ Size.read t = .ok bytes.sum

/-- **The sizes of a queue** are those of some others added up, those of its tins position by
position. -/
structure SizesAdded (queues : List Snapshot) (s : Snapshot) : Prop where
  memory : AddsUp (queues.map (·.memoryUsed)) s.memoryUsed
  backlog : AddsUp (queues.map (·.backlogBytes)) s.backlogBytes
  tins : ∀ i t, s.tins[i]? = some t →
    AddsUp ((column (queues.map (·.tins)) i).map (·.label .backlog)) (t.label .backlog)

theorem addsUp_of_addSizes {sizes : List Text} {t : Text} (h : addSizes sizes = .ok t) :
    AddsUp sizes t := by
  obtain ⟨bytes, hbytes, -, hread⟩ := isSum_of_addSizes h
  exact ⟨bytes, hbytes, hread⟩

theorem addsUp_mergeColumn {base t : Tin} {column : List Tin} (h : mergeColumn base column = .ok t) :
    AddsUp (column.map (·.label .backlog)) (t.label .backlog) := by
  rw [mergeColumn_eq] at h
  obtain ⟨backlog, hbacklog, rfl⟩ := map_eq_ok.mp h
  exact addsUp_of_addSizes hbacklog

theorem addsUp_mergeTins {tables : List (List Tin)} {tins : List Tin}
    (h : mergeTins tables = .ok tins) {i : Nat} {t : Tin} (ht : tins[i]? = some t) :
    AddsUp ((column tables i).map (·.label .backlog)) (t.label .backlog) := by
  obtain ⟨hlength, hcolumns⟩ := getElem?_mergeTins h
  have hbound : i < (tables.headD []).length := by
    rw [← hlength]
    exact (List.getElem?_eq_some_iff.mp ht).1
  exact addsUp_mergeColumn (hcolumns i _ t (List.getElem?_eq_getElem hbound) ht)

/-- **A merged queue has the sizes of its children added up**; without children it has none, and no
size counts as zero. -/
theorem sizesAdded_mergeQueues {parent s : Snapshot} {children : List Snapshot}
    (h : mergeQueues parent children = .ok s) : SizesAdded children s := by
  cases children with
  | nil =>
    obtain rfl := Except.ok.inj h
    have hnone : AddsUp [] [] := ⟨[], rfl, rfl⟩
    refine ⟨hnone, hnone, fun i t ht => ?_⟩
    cases ht
  | cons first rest =>
    obtain ⟨_, _, _, hbacklog, hmemory, htins, rfl⟩ := mergeQueues_cons h
    exact ⟨addsUp_of_addSizes hmemory, addsUp_of_addSizes hbacklog, fun _ _ => addsUp_mergeTins htins⟩

/-- The snapshots in some positions. -/
def snapshotsAt (blocks : List Block) (is : List Nat) : List Snapshot :=
  is.filterMap fun i => blocks[i]?.map (·.snapshot)

theorem snapshotsAt_childPositions (blocks : List Block) (k : Key) :
    snapshotsAt blocks (childPositions blocks k) = children blocks k := by
  have hget : ∀ b ∈ blocks.zipIdx, blocks[b.2]? = some b.1 := fun _ => List.mem_zipIdx_iff_getElem?.mp
  have hblocks : (blocks.zipIdx.filter fun b => decide (childKey? b.1 = some k)).map (·.1)
      = blocks.filter fun b => decide (childKey? b = some k) := by
    conv_rhs => rw [← List.zipIdx_map_fst 0 blocks, List.filter_map]
    rfl
  unfold snapshotsAt childPositions positions children
  rw [← hblocks, List.filterMap_map, List.map_map, ← List.filterMap_eq_map]
  refine List.filterMap_congr fun b hb => ?_
  show blocks[b.2]?.map (·.snapshot) = some b.1.snapshot
  rw [hget b (List.mem_of_mem_filter hb)]
  rfl

/-- **An output that is put together** has the sizes of its children added up. -/
def Origin.Adds (blocks : List Block) : Origin → Snapshot → Prop
  | .kept _, _ => True
  | .merged _ is, s => SizesAdded (snapshotsAt blocks is) s

theorem adds_of_gives {blocks : List Block} {o : Origin} {s : Snapshot} (h : Gives blocks o s) :
    o.Adds blocks s := by
  cases h with
  | kept _ _ => trivial
  | merged _ _ _ merge =>
    show SizesAdded (snapshotsAt blocks _) s
    rw [snapshotsAt_childPositions]
    exact sizesAdded_mergeQueues merge

end MultiQueue

/-! ## Reports -/

namespace Report

open MultiQueue

/-- The snapshots of a printed report are sound. -/
theorem sound_snapshots {now : Timestamp} {report : Text} {outputs : List Snapshot}
    (h : snapshots now report = .ok outputs) : ∀ s ∈ outputs, s.Sound := by
  obtain ⟨blocks, hblocks, hmerge⟩ := bind_eq_ok.mp h
  have hgives := (accounts_origins hmerge).gives
  have hsound := sound_cakeBlocks hblocks
  intro s hs
  obtain ⟨i, hi, rfl⟩ := List.mem_iff_getElem.mp hs
  obtain ⟨hlength, hget⟩ := List.forall₂_iff_get.mp hgives
  exact sound_gives hsound (hget i (by omega) hi)

/-- **Every snapshot of every report is well formed**: a printed one, where also the options have known
values and each merged queue has the sizes of its children added up, and a structured one, be it text or
octets. -/
theorem every_snapshot_well_formed (now : Timestamp) :
    (∀ report outputs, Report.snapshots now report = .ok outputs →
      (∀ s ∈ outputs, s.WellFormed ∧ s.options.Known) ∧
      ∃ blocks origins, cakeBlocks now report = .ok blocks ∧ Accounts blocks outputs origins ∧
        List.Forall₂ (Origin.Adds blocks) origins outputs) ∧
    (∀ report outputs, Structured.ofText now report = .ok outputs → ∀ s ∈ outputs, s.WellFormed) ∧
    ∀ report outputs, Structured.ofOctets now report = .ok outputs → ∀ s ∈ outputs, s.WellFormed := by
  refine ⟨fun report outputs h => ?_, fun _ _ => Structured.wellFormed_snapshots,
    fun _ _ => Structured.wellFormed_snapshots⟩
  refine ⟨fun s hs => ?_, ?_⟩
  · have hsound := sound_snapshots h s hs
    exact ⟨hsound.toWellFormed, hsound.options⟩
  · obtain ⟨blocks, hblocks, hmerge⟩ := bind_eq_ok.mp h
    have haccounts := accounts_origins hmerge
    exact ⟨blocks, _, hblocks, haccounts, haccounts.gives.imp fun _ _ => adds_of_gives⟩

/-- A report of two hardware queues under one parent; `raw` is a value, and `x` no number. -/
def loadedReport : Text := "qdisc cake_mq 1: dev e0 root
qdisc cake 0: dev e0 parent 1:1 atm rtt raw ingress
 Sent 10b bytes x pkt
 memory used: 1Kb of 4Mb
Tin 0
 backlog 1Kb
qdisc cake 0: dev e0 parent 1:2
 memory used: 24b of 4Mb
Tin 0
 backlog 8b
"

/-- A structured report with a negative number and a text among the counters. -/
def oddEntry : Text := "[\x7b\"kind\":\"cake\",\"bytes\":-10,\"packets\":\"3p\"\x7d]"

theorem every_snapshot_well_formed_loaded :
    (∃ outputs blocks origins, Report.snapshots 0 loadedReport = .ok outputs ∧
      outputs.map (·.memoryUsed) = ["1048b"] ∧ (∀ s ∈ outputs, s.WellFormed ∧ s.options.Known) ∧
      cakeBlocks 0 loadedReport = .ok blocks ∧ Accounts blocks outputs origins ∧
        List.Forall₂ (Origin.Adds blocks) origins outputs) ∧
    ∃ outputs, Structured.ofText 0 oddEntry = .ok outputs ∧
      Structured.ofOctets 0 (Utf8.encode oddEntry) = .ok outputs ∧ ∀ s ∈ outputs, s.WellFormed := by
  obtain ⟨hprinted, hstructured, -⟩ := every_snapshot_well_formed 0
  have hloaded : Report.snapshots 0 loadedReport = .ok
      [{ interface := "e0", handle := "1", rawHeader := "qdisc cake_mq 1: dev e0 root"
         options := { direction := "ingress", rtt := "raw", atmMode := "atm" }
         totals := { sentBytes := 10 }
         backlogBytes := "0b", memoryUsed := "1048b", memoryTotal := "4Mb"
         tins := [{ name := "Tin 0", labels := { backlog := "1032b" } }] }] := by
    decide +kernel
  have hodd : Structured.ofText 0 oddEntry = .ok [{ totals := { sentPkts := 3 } }] := by
    decide +kernel
  have hoctets : Structured.ofOctets 0 (Utf8.encode oddEntry) = .ok [{ totals := { sentPkts := 3 } }] := by
    decide +kernel
  obtain ⟨hsound, blocks, origins, hblocks, haccounts, hadds⟩ := hprinted _ _ hloaded
  exact ⟨⟨_, blocks, origins, hloaded, rfl, hsound, hblocks, haccounts, hadds⟩,
    ⟨_, hodd, hoctets, hstructured _ _ hodd⟩⟩

end Report

end CakeMonitor
