import CakeMonitor.MultiQueue
import CakeMonitor.Proofs.Fallible
import Mathlib.Algebra.BigOperators.Group.List.Basic
import Mathlib.Algebra.Order.Ring.Int

/-!
# What a merged queue is made of

The snapshot of a parent with children in terms of the children's, where the merge returns one.

* `MultiQueue.mergeQueues_cons`: every field of it.
* `MultiQueue.count_mergeColumn`: the counters of a merged tin.
* `MultiQueue.sum_columns`: a sum over tables, column by column.
* `MultiQueue.tinTotal_mergeQueues`: nothing is lost when no table is longer than the first.
-/

namespace CakeMonitor

theorem sumOf_eq_sum (l : List Int) : sumOf l = l.sum := rfl

/-- A counter of the tins of a snapshot taken together. -/
def Snapshot.tinTotal (c : TinCounter) (s : Snapshot) : Int := (s.tins.map (·.count c)).sum

/-- Whether a counter of the tins is added up over the queues; the greatest of the packet lengths is
taken, and the quantum is a setting. -/
def TinCounter.IsSummed (c : TinCounter) : Prop := c ≠ .maxLen ∧ c ≠ .quantum

namespace MultiQueue

/-! ## The merged snapshot -/

/-- **A merged snapshot**: identity from the parent, the sums from all children, the rest from the
first. -/
theorem mergeQueues_cons {parent first s : Snapshot} {rest : List Snapshot}
    (h : mergeQueues parent (first :: rest) = .ok s) : ∃ backlogBytes memoryUsed tins,
      addSizes ((first :: rest).map (·.backlogBytes)) = .ok backlogBytes ∧
      addSizes ((first :: rest).map (·.memoryUsed)) = .ok memoryUsed ∧
      mergeTins ((first :: rest).map (·.tins)) = .ok tins ∧
      s = { first with
        handle := parent.handle
        interface := parent.interface
        rawHeader := parent.rawHeader
        updatedAt := parent.updatedAt
        totals := .ofFn fun t => sumOf ((first :: rest).map (·.totals.get t))
        backlogBytes, memoryUsed, tins } := by
  unfold mergeQueues at h
  obtain ⟨backlogBytes, hbacklog, h⟩ := bind_eq_ok.mp h
  obtain ⟨memoryUsed, hmemory, h⟩ := bind_eq_ok.mp h
  obtain ⟨tins, htins, h⟩ := bind_eq_ok.mp h
  exact ⟨backlogBytes, memoryUsed, tins, hbacklog, hmemory, htins, (Except.ok.inj h).symm⟩

/-- The counters of a parent are those of its children taken together. -/
theorem total_mergeQueues {parent s : Snapshot} {children : List Snapshot}
    (h : mergeQueues parent children = .ok s) (t : Total) :
    s.totals.get t = (children.map (·.totals.get t)).sum := by
  cases children with
  | nil =>
    obtain rfl := Except.ok.inj h
    cases t <;> rfl
  | cons first rest =>
    obtain ⟨-, -, -, -, -, -, rfl⟩ := mergeQueues_cons h
    rw [Totals.get_ofFn, sumOf_eq_sum]

/-! ## The merged tins -/

theorem count_mergeColumn {base tin : Tin} {column : List Tin} (h : mergeColumn base column = .ok tin)
    {c : TinCounter} (hc : c.IsSummed) : tin.count c = (column.map (·.count c)).sum := by
  unfold mergeColumn at h
  obtain ⟨backlog, -, h⟩ := bind_eq_ok.mp h
  obtain rfl := Except.ok.inj h
  obtain ⟨hmax, hquantum⟩ := hc
  unfold Tin.count
  rw [TinCounters.get_ofFn]
  cases c with
  | maxLen => exact absurd rfl hmax
  | quantum => exact absurd rfl hquantum
  | _ => rfl

/-- The tins of a merged table, column by column. -/
theorem forall₂_mergeTins {tables : List (List Tin)} {tins : List Tin}
    (h : mergeTins tables = .ok tins) :
    List.Forall₂ (fun (b : Tin × Nat) tin => mergeColumn b.1 (column tables b.2) = .ok tin)
      (tables.headD []).zipIdx tins :=
  forall₂_of_mapM h

theorem column_cons (table : List Tin) (tables : List (List Tin)) (i : Nat) :
    column (table :: tables) i = table[i]?.toList ++ column tables i := by
  unfold column
  rw [List.filterMap_cons]
  cases table[i]? <;> rfl

theorem sum_positions (f : Tin → Int) : ∀ {n : Nat} {table : List Tin}, table.length ≤ n →
    ((List.range n).map fun i => (table[i]?.toList.map f).sum).sum = (table.map f).sum
  | n, [], _ => by simp
  | 0, tin :: table, h => absurd h (by simp)
  | n + 1, tin :: table, h => by
    have ih := sum_positions f (Nat.le_of_succ_le_succ h)
    rw [List.range_succ_eq_map, List.map_cons, List.map_map, List.sum_cons, List.map_cons,
      List.sum_cons, ← ih]
    simp [Function.comp_def]

/-- **A sum over tables is a sum over columns**, if there are columns enough. -/
theorem sum_columns (f : Tin → Int) {n : Nat} {tables : List (List Tin)}
    (h : ∀ table ∈ tables, table.length ≤ n) :
    ((List.range n).map fun i => ((column tables i).map f).sum).sum
      = (tables.map fun table => (table.map f).sum).sum := by
  induction tables with
  | nil => simp [column]
  | cons table tables ih =>
    obtain ⟨htable, htables⟩ := List.forall_mem_cons.mp h
    simp only [column_cons, List.map_append, List.sum_append]
    rw [List.sum_map_add, sum_positions f htable, ih htables, List.map_cons, List.sum_cons]

/-- **Nothing is lost in the tins** when no table is longer than the first. -/
theorem tinTotal_mergeQueues {parent s first : Snapshot} {rest : List Snapshot}
    (h : mergeQueues parent (first :: rest) = .ok s)
    (hlength : ∀ x ∈ rest, x.tins.length ≤ first.tins.length) {c : TinCounter} (hc : c.IsSummed) :
    s.tinTotal c = ((first :: rest).map (·.tinTotal c)).sum := by
  obtain ⟨-, -, tins, -, -, htins, rfl⟩ := mergeQueues_cons h
  have hcolumns : tins.map (·.count c) = first.tins.zipIdx.map fun b =>
      ((column ((first :: rest).map (·.tins)) b.2).map (·.count c)).sum := by
    refine map_eq_of_forall₂ ?_ (forall₂_mergeTins htins)
    intro b tin hb
    exact count_mergeColumn hb hc
  have hrange : first.tins.zipIdx.map (fun b =>
        ((column ((first :: rest).map (·.tins)) b.2).map (·.count c)).sum)
      = (List.range first.tins.length).map fun i =>
        ((column ((first :: rest).map (·.tins)) i).map (·.count c)).sum := by
    rw [List.range_eq_range', ← List.zipIdx_map_snd 0 first.tins, List.map_map]
    rfl
  have htables : ∀ table ∈ (first :: rest).map (·.tins), table.length ≤ first.tins.length := by
    rw [List.map_cons, List.forall_mem_cons]
    exact ⟨Nat.le_refl _, List.forall_mem_map.mpr hlength⟩
  show (tins.map (·.count c)).sum = _
  rw [hcolumns, hrange, sum_columns (·.count c) htables, List.map_map]
  rfl

end MultiQueue

end CakeMonitor
