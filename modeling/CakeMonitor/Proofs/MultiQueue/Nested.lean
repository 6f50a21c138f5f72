import CakeMonitor.Proofs.MultiQueue.Addable

/-!
# Merging in two steps

Queues may be merged all at once, or some of them first and the rest with the result. Both give the
same snapshot: what is read off an intermediate result is what its queues would have contributed.

* `worstDelay_append`: the worst of some delays stands for all of them.
* `addSizes_append`: a printed sum of sizes stands for the sizes, and can be printed when a larger one
  can.
* `mergeColumn_append`, `mergeTins_append`: so does a merged tin, and a merged table.
* `mergeQueues_append_iff`: merging at once and merging in two steps are the same.
-/

namespace CakeMonitor

/-! ## Sizes -/

theorem readable_of_le {m n : Nat} (h : m ≤ n) (hn : Readable n) : Readable m := by
  unfold Readable at hn ⊢
  rw [Nat.length_toDigits_le_iff (by decide) (by decide)] at hn ⊢
  exact Nat.lt_of_le_of_lt h hn

theorem Addable.of_append {xs ys : List Text} (h : Addable (xs ++ ys)) : Addable xs := by
  obtain ⟨hlegible, hsum⟩ := h
  rw [List.map_append, List.sum_append] at hsum
  exact ⟨fun t ht => hlegible t (List.mem_append_left ys ht),
    readable_of_le (Nat.le_add_right _ _) hsum⟩

namespace Size

theorem print_ofNat {n : Nat} (h : Readable n) :
    print n = .ok (Text.ofNat n ++ ("b" : Text)) := by
  have hdigits : (Nat.toDigits 10 (n : Int).natAbs).length ≤ digitLimit := h
  have hsign : ¬ (n : Int) < 0 := by omega
  rw [print, printInt, if_pos hdigits, Text.ofInt, if_neg hsign]
  rfl

/-- A printed size is read back. -/
theorem read_print {n : Nat} (h : Readable n) : read (Text.ofNat n ++ ("b" : Text)) = .ok n := by
  have hw : Text.IsWord (Text.ofNat n ++ ("b" : Text)) :=
    ⟨by simp [ofNat_ne_nil], List.forall_mem_append.mpr ⟨(isWord_ofNat n).solid, by decide⟩⟩
  have hsplit : splitIn units (Text.ofNat n ++ ("b" : Text)) = (Text.ofNat n, 1) :=
    splitIn_append (forall_mem_ofNat isDigit_ascii_digit n) (by decide)
  rw [read, readIn_eq, hw.trim_eq, hsplit, digitsOrZero_ofNat h]
  exact congrArg Except.ok (Nat.mul_one n)

end Size

namespace MultiQueue

/-! ## Delays -/

theorem microseconds_nil : Delay.microseconds [] = .zero := rfl

/-- The time that is kept besides the worst delay is always that of the delay, so the delay alone tells
how to go on. -/
theorem worstFrom_append : ∀ (ds es : List Text) (best : Text),
    worstFrom (Delay.microseconds best) best (ds ++ es)
      = worstFrom (Delay.microseconds (worstFrom (Delay.microseconds best) best ds))
          (worstFrom (Delay.microseconds best) best ds) es
  | [], _, _ => rfl
  | d :: ds, es, best => by
    simp only [List.cons_append, worstFrom]
    split_ifs
    · exact worstFrom_append ds es d
    · exact worstFrom_append ds es best

/-- **The worst of some delays stands for all of them.** -/
theorem worstDelay_append (ds es : List Text) :
    worstDelay (worstDelay ds :: es) = worstDelay (ds ++ es) := by
  have hfirst : worstDelay (worstDelay ds :: es)
      = worstFrom (Delay.microseconds (worstDelay ds)) (worstDelay ds) es := by
    simp [worstDelay, worstFrom]
  have hall := worstFrom_append ds es []
  rw [microseconds_nil] at hall
  rw [hfirst]
  exact hall.symm

/-! ## Sums of sizes -/

/-- The sum of sizes that can be added. -/
theorem addSizes_of_addable {sizes : List Text} (h : Addable sizes) :
    addSizes sizes = .ok (Text.ofNat (sizes.map Size.bytes).sum ++ ("b" : Text)) := by
  have hvalues := mapM_eq_ok fun t ht => Size.read_of_legible (h.1 t ht)
  rw [addSizes, hvalues, ← Size.print_ofNat h.2, ← sumOf_ofNat]
  rfl

/-- The text says the sum of the sizes that the texts say. -/
def IsSum (sizes : List Text) (t : Text) : Prop := ∃ bytes, sizes.mapM Size.read = .ok bytes ∧
  t = Text.ofNat bytes.sum ++ ("b" : Text) ∧ Size.read t = .ok bytes.sum

theorem isSum_of_addSizes {sizes : List Text} {t : Text} (h : addSizes sizes = .ok t) :
    IsSum sizes t := by
  have haddable := succeeds_addSizes.mp ⟨t, h⟩
  obtain rfl := Except.ok.inj (h.symm.trans (addSizes_of_addable haddable))
  exact ⟨_, mapM_eq_ok fun t ht => Size.read_of_legible (haddable.1 t ht), rfl,
    Size.read_print haddable.2⟩

/-- **A sum of sizes stands for the sizes.** -/
theorem addSizes_append {xs : List Text} {t : Text} (h : addSizes xs = .ok t) (ys : List Text) :
    addSizes (t :: ys) = addSizes (xs ++ ys) := by
  obtain ⟨values, hvalues, -, hread⟩ := isSum_of_addSizes h
  unfold addSizes
  rw [List.mapM_append, hvalues, List.mapM_cons, hread]
  cases hys : ys.mapM Size.read with
  | error e => rfl
  | ok bytes =>
    show Size.print (sumOf _) = Size.print (sumOf _)
    rw [sumOf_ofNat, sumOf_ofNat, List.sum_cons, List.sum_append]

/-! ## Tins -/

/-- The tin that merging gives, once the sum of the backlogs is known. -/
def mergedTin (base : Tin) (column : List Tin) (backlog : Text) : Tin where
  name := base.name
  labels := .ofFn fun
    | .backlog => backlog
    | .pkDelay => worstDelay (column.map (·.label .pkDelay))
    | .avDelay => worstDelay (column.map (·.label .avDelay))
    | .spDelay => worstDelay (column.map (·.label .spDelay))
    | l => base.label l
  counters := .ofFn fun
    | .maxLen => (column.map (·.count .maxLen)).foldl max (base.count .maxLen)
    | .quantum => base.count .quantum
    | c => sumOf (column.map (·.count c))

theorem mergeColumn_eq (base : Tin) (column : List Tin) : mergeColumn base column
    = (addSizes (column.map (·.label .backlog))).map (mergedTin base column) := by
  unfold mergeColumn
  cases addSizes (column.map (·.label .backlog)) with
  | error e => rfl
  | ok backlog => rfl

theorem foldl_max_append (l r : List Int) (m : Int) :
    (l.foldl max m :: r).foldl max (l.foldl max m) = (l ++ r).foldl max m := by
  rw [List.foldl_cons, max_self, List.foldl_append]

theorem sumOf_append (l r : List Int) : sumOf (sumOf l :: r) = sumOf (l ++ r) := by
  simp only [sumOf_eq_sum, List.sum_cons, List.sum_append]

/-- Every figure and every counter of a merged tin is that of its tins. -/
theorem mergedTin_append (base : Tin) (column rest : List Tin) (b backlog : Text) :
    mergedTin (mergedTin base column b) (mergedTin base column b :: rest) backlog
      = mergedTin base (column ++ rest) backlog := by
  have hdelay (l : TinLabel) :
      worstDelay (worstDelay (column.map (·.label l)) :: rest.map (·.label l))
        = worstDelay ((column ++ rest).map (·.label l)) := by
    rw [worstDelay_append, List.map_append]
  have hsum (c : TinCounter) :
      sumOf (sumOf (column.map (·.count c)) :: rest.map (·.count c))
        = sumOf ((column ++ rest).map (·.count c)) := by
    rw [sumOf_append, List.map_append]
  have hmax := foldl_max_append (column.map (·.count .maxLen)) (rest.map (·.count .maxLen))
    (base.count .maxLen)
  rw [← List.map_append] at hmax
  refine congrArg₂ (Tin.mk base.name) ?_ ?_
  · refine congrArg TinLabels.ofFn (funext fun l => ?_)
    cases l with
    | pkDelay => exact hdelay .pkDelay
    | avDelay => exact hdelay .avDelay
    | spDelay => exact hdelay .spDelay
    | _ => rfl
  · refine congrArg TinCounters.ofFn (funext fun c => ?_)
    cases c with
    | maxLen => exact hmax
    | quantum => rfl
    | pkts => exact hsum .pkts
    | _ => exact hsum _

/-- **A merged tin stands for its tins.** -/
theorem mergeColumn_append {base m : Tin} {column : List Tin} (h : mergeColumn base column = .ok m)
    (rest : List Tin) : mergeColumn m (m :: rest) = mergeColumn base (column ++ rest) := by
  rw [mergeColumn_eq] at h
  obtain ⟨backlog, hbacklog, rfl⟩ := map_eq_ok.mp h
  have hsizes := addSizes_append hbacklog (rest.map (·.label .backlog))
  rw [← List.map_append] at hsizes
  rw [mergeColumn_eq, mergeColumn_eq, ← hsizes]
  show (addSizes (backlog :: rest.map (·.label .backlog))).map _ = _
  cases addSizes (backlog :: rest.map (·.label .backlog)) with
  | error e => rfl
  | ok total => exact congrArg Except.ok (mergedTin_append base column rest backlog total)

/-! ## Tables -/

theorem column_append (tables others : List (List Tin)) (i : Nat) :
    column (tables ++ others) i = column tables i ++ column others i :=
  List.filterMap_append

theorem getElem?_mergeTins {tables : List (List Tin)} {tins : List Tin}
    (h : mergeTins tables = .ok tins) : tins.length = (tables.headD []).length ∧
      ∀ i base m, (tables.headD [])[i]? = some base → tins[i]? = some m →
        mergeColumn base (column tables i) = .ok m := by
  have hlength := (forall₂_mergeTins h).length_eq
  rw [List.length_zipIdx] at hlength
  refine ⟨hlength.symm, fun i base m hbase hm => ?_⟩
  obtain ⟨b, hb, hcolumn⟩ := getElem?_of_mapM_zipIdx h hm
  obtain rfl := Option.some.inj (hbase.symm.trans hb)
  exact hcolumn

/-- **A merged table stands for its tables.** -/
theorem mergeTins_append {table : List Tin} {tables : List (List Tin)} {tins : List Tin}
    (h : mergeTins (table :: tables) = .ok tins) (others : List (List Tin)) :
    mergeTins (tins :: others) = mergeTins (table :: tables ++ others) := by
  obtain ⟨hlength, hcolumns⟩ := getElem?_mergeTins h
  refine mapM_zipIdx_congr hlength fun i m base hm hbase => ?_
  have hcolumn : column (tins :: others) i = m :: column others i := by
    have hm' : tins[i]? = some m := hm
    rw [column_cons, hm']
    rfl
  rw [Nat.zero_add]
  show mergeColumn m (column (tins :: others) i) = mergeColumn base (column (table :: tables ++ others) i)
  rw [hcolumn, column_append]
  exact mergeColumn_append (hcolumns i base m hbase hm) (column others i)

/-! ## Queues -/

/-- What a merged queue has from its first child. -/
def kept (s : Snapshot) : Snapshot where
  options := s.options
  memoryTotal := s.memoryTotal
  capacityEstimate := s.capacityEstimate
  sizes := s.sizes
  rates := s.rates

theorem mergeQueues_eq (parent first : Snapshot) (rest : List Snapshot) :
    mergeQueues parent (first :: rest) = (do
      let backlogBytes ← addSizes ((first :: rest).map (·.backlogBytes))
      let memoryUsed ← addSizes ((first :: rest).map (·.memoryUsed))
      let tins ← mergeTins ((first :: rest).map (·.tins))
      return { kept first with
        handle := parent.handle
        interface := parent.interface
        rawHeader := parent.rawHeader
        updatedAt := parent.updatedAt
        totals := .ofFn fun t => sumOf ((first :: rest).map (·.totals.get t))
        backlogBytes, memoryUsed, tins }) := rfl

/-- All that a merge asks of its children. -/
theorem mergeQueues_congr {parent first first' : Snapshot} {rest rest' : List Snapshot}
    (hkept : kept first = kept first')
    (hbacklog : addSizes ((first :: rest).map (·.backlogBytes))
      = addSizes ((first' :: rest').map (·.backlogBytes)))
    (hmemory : addSizes ((first :: rest).map (·.memoryUsed))
      = addSizes ((first' :: rest').map (·.memoryUsed)))
    (htins : mergeTins ((first :: rest).map (·.tins)) = mergeTins ((first' :: rest').map (·.tins)))
    (htotals : ∀ t, sumOf ((first :: rest).map (·.totals.get t))
      = sumOf ((first' :: rest').map (·.totals.get t))) :
    mergeQueues parent (first :: rest) = mergeQueues parent (first' :: rest') := by
  rw [mergeQueues_eq, mergeQueues_eq, hkept, hbacklog, hmemory, htins, funext htotals]

/-- What can be merged with more queues can be merged without them. -/
theorem Mergeable.of_append {x : Snapshot} {xs ys : List Snapshot}
    (h : Mergeable (x :: xs ++ ys)) : Mergeable (x :: xs) := by
  unfold Mergeable addends at h ⊢
  simp only [List.forall_mem_cons, List.map_append] at h ⊢
  obtain ⟨hbacklog, hmemory, htins⟩ := h
  refine ⟨hbacklog.of_append, hmemory.of_append, ?_⟩
  unfold tinBacklogs at htins ⊢
  simp only [List.forall_mem_map] at htins ⊢
  intro b hb
  have hcolumn := htins b hb
  rw [column_append, List.map_append] at hcolumn
  exact hcolumn.of_append

/-- **A merged queue stands for its queues**, and its parent does not matter. -/
theorem mergeQueues_append {p q x m : Snapshot} {xs : List Snapshot}
    (h : mergeQueues q (x :: xs) = .ok m) (ys : List Snapshot) :
    mergeQueues p (m :: ys) = mergeQueues p (x :: xs ++ ys) := by
  obtain ⟨backlogBytes, memoryUsed, tins, hbacklog, hmemory, htins, rfl⟩ := mergeQueues_cons h
  have hbacklogs := addSizes_append hbacklog (ys.map (·.backlogBytes))
  have hmemories := addSizes_append hmemory (ys.map (·.memoryUsed))
  have htables := mergeTins_append htins (ys.map (·.tins))
  rw [← List.map_append] at hbacklogs hmemories
  rw [← List.map_cons, ← List.map_append] at htables
  refine mergeQueues_congr rfl hbacklogs hmemories htables fun t => ?_
  have htotal := sumOf_append ((x :: xs).map (·.totals.get t)) (ys.map (·.totals.get t))
  rw [← List.map_append] at htotal
  rw [List.map_cons, Totals.get_ofFn]
  exact htotal

/-- **Merging at once and merging in two steps are the same**: one gives a snapshot exactly when the
other does, and it is the same one. -/
theorem mergeQueues_append_iff (p q x : Snapshot) (xs ys : List Snapshot) (s : Snapshot) :
    mergeQueues p (x :: xs ++ ys) = .ok s
      ↔ ∃ m, mergeQueues q (x :: xs) = .ok m ∧ mergeQueues p (m :: ys) = .ok s := by
  constructor
  · intro h
    have hmergeable := succeeds_mergeQueues.mp ⟨s, h⟩
    have hinner : Succeeds (mergeQueues q (x :: xs)) := succeeds_mergeQueues.mpr hmergeable.of_append
    obtain ⟨m, hm⟩ := hinner
    exact ⟨m, hm, (mergeQueues_append hm ys).trans h⟩
  · rintro ⟨m, hm, h⟩
    rw [← mergeQueues_append hm ys]
    exact h

end MultiQueue

end CakeMonitor
