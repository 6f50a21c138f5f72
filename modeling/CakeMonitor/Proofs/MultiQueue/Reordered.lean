import CakeMonitor.Proofs.MultiQueue.Nested
import CakeMonitor.Proofs.Number.Order

/-!
# The order of hardware queues

Which hardware queue a report lists second and which third tells nothing. The configuration comes from
the first queue; of all others only sums, greatest values and worst delays are taken. A worst delay is
kept as it was printed, so another order may choose another spelling of it (`1ms` or `1000us`), but not
another time.

* `worstDelay_mem`, `le_worstDelay`: the worst delay is one of the delays, and none lasts longer.
* `worstDelay_perm`: in any order the worst delay lasts as long.
* `mergedTins`, `mergedQueue`: what a merge gives where it gives a result.
* `Mergeable.perm`: whether it does is no matter of order.
* `mergeQueues_reordered`: merged in another order, the snapshot has the same numbers.
-/

namespace CakeMonitor

/-- The delay lasts some time or none: it is no NaN, and it is not negative. -/
def Delay.NonNegative (t : Text) : Prop := Binary64.le .zero (Delay.microseconds t) = true

instance (t : Text) : Decidable (Delay.NonNegative t) :=
  inferInstanceAs (Decidable (Binary64.le .zero (Delay.microseconds t) = true))

namespace MultiQueue

open Delay (NonNegative microseconds)
open Binary64 (Equals)

/-! ## The worst delay -/

theorem nonNegative_nil : NonNegative [] := by decide

/-- A delay takes the place of the worst so far when it lasts longer, or when there is none yet. -/
theorem worstFrom_cons (longest : Binary64) (best d : Text) (ds : List Text) :
    worstFrom longest best (d :: ds) =
      if longest.lt (microseconds d) = true ∨ best = [] then worstFrom (microseconds d) d ds
      else worstFrom longest best ds := by
  simp [worstFrom]

theorem worstFrom_mem : ∀ (ds : List Text) (longest : Binary64) (best : Text),
    worstFrom longest best ds = best ∨ worstFrom longest best ds ∈ ds
  | [], _, _ => Or.inl rfl
  | d :: ds, longest, best => by
    rw [worstFrom_cons]
    by_cases hworse : longest.lt (microseconds d) = true ∨ best = []
    · rw [if_pos hworse]
      rcases worstFrom_mem ds (microseconds d) d with h | h
      · exact Or.inr (by rw [h]; exact List.mem_cons_self)
      · exact Or.inr (List.mem_cons_of_mem d h)
    · rw [if_neg hworse]
      rcases worstFrom_mem ds longest best with h | h
      · exact Or.inl h
      · exact Or.inr (List.mem_cons_of_mem d h)

/-- Nothing lasts longer than the worst delay, neither the best so far nor what follows. -/
theorem le_worstFrom : ∀ (ds : List Text) (best : Text), NonNegative best →
    (∀ d ∈ ds, NonNegative d) → ∀ d ∈ best :: ds,
      (microseconds d).le (microseconds (worstFrom (microseconds best) best ds)) = true
  | [], best, hbest, _, d, hd => by
    obtain rfl := List.mem_singleton.mp hd
    exact Binary64.le_self_right hbest
  | e :: es, best, hbest, hes, d, hd => by
    obtain ⟨he, hes⟩ := List.forall_mem_cons.mp hes
    rw [worstFrom_cons]
    by_cases hworse : (microseconds best).lt (microseconds e) = true ∨ best = []
    · rw [if_pos hworse]
      -- the empty text counts as no time, so what takes its place does not last less
      have hle : (microseconds best).le (microseconds e) = true := by
        rcases hworse with hlt | rfl
        · exact Binary64.le_of_lt hlt
        · exact he
      have ih := le_worstFrom es e he hes
      rcases List.mem_cons.mp hd with rfl | hd
      · exact Binary64.le_trans hle (ih e List.mem_cons_self)
      · exact ih d hd
    · rw [if_neg hworse]
      have hle : (microseconds e).le (microseconds best) = true :=
        Binary64.le_of_not_lt (Binary64.le_self_right hbest) (Binary64.le_self_right he)
          fun hlt => hworse (Or.inl hlt)
      obtain ⟨hfirst, hrest⟩ := List.forall_mem_cons.mp (le_worstFrom es best hbest hes)
      rcases List.mem_cons.mp hd with rfl | hd
      · exact hfirst
      · rcases List.mem_cons.mp hd with rfl | hd
        · exact Binary64.le_trans hle hfirst
        · exact hrest d hd

theorem worstDelay_mem (ds : List Text) : worstDelay ds = [] ∨ worstDelay ds ∈ ds :=
  worstFrom_mem ds .zero []

/-- **No delay lasts longer than the worst one.** -/
theorem le_worstDelay {ds : List Text} (h : ∀ d ∈ ds, NonNegative d) :
    ∀ d ∈ [] :: ds, (microseconds d).le (microseconds (worstDelay ds)) = true :=
  le_worstFrom ds [] nonNegative_nil h

/-- The worst delay of some is at most that of more. -/
theorem worstDelay_le {ds es : List Text} (hes : ∀ d ∈ es, NonNegative d) (hsub : ds ⊆ es) :
    (microseconds (worstDelay ds)).le (microseconds (worstDelay es)) = true := by
  refine le_worstDelay hes _ ?_
  rcases worstDelay_mem ds with h | h
  · rw [h]
    exact List.mem_cons_self
  · exact List.mem_cons_of_mem _ (hsub h)

/-- **The worst delay lasts as long in any order.** -/
theorem worstDelay_perm {ds es : List Text} (hperm : ds.Perm es) (h : ∀ d ∈ ds, NonNegative d) :
    Equals (microseconds (worstDelay ds)) (microseconds (worstDelay es)) :=
  ⟨worstDelay_le (fun d hd => h d (hperm.mem_iff.mpr hd)) hperm.subset,
    worstDelay_le h hperm.symm.subset⟩

end MultiQueue

/-! ## Snapshots without their delays -/

/-- Whether a figure is a delay. -/
def TinLabel.isDelay : TinLabel → Bool
  | pkDelay | avDelay | spDelay => true
  | _ => false

/-- The tin with its delays left out. -/
def Tin.withoutDelays (t : Tin) : Tin :=
  { t with labels := .ofFn fun l => if l.isDelay then [] else t.label l }

/-- The snapshot with the delays of its tins left out. -/
def Snapshot.withoutDelays (s : Snapshot) : Snapshot := { s with tins := s.tins.map Tin.withoutDelays }

namespace MultiQueue

/-- The snapshots have the same numbers: they are equal but for the delays of their tins, and where no
delay of a column of `tables` is negative or NaN, the one that stands for the column lasts as long in
both. -/
structure SameNumbers (tables : List (List Tin)) (s s' : Snapshot) : Prop where
  rest : s.withoutDelays = s'.withoutDelays
  delays : ∀ i t t', s.tins[i]? = some t → s'.tins[i]? = some t' → ∀ l : TinLabel, l.isDelay = true →
    (∀ d ∈ (column tables i).map (·.label l), Delay.NonNegative d) →
      Binary64.Equals (Delay.microseconds (t.label l)) (Delay.microseconds (t'.label l))

/-! ## What a merge gives -/

/-- The sum of sizes that can be added, as it is printed. -/
def sizeSum (sizes : List Text) : Text := Text.ofNat (sizes.map Size.bytes).sum ++ ("b" : Text)

/-- The tins that merging tables gives. -/
def mergedTins (tables : List (List Tin)) : List Tin :=
  (tables.headD []).zipIdx.map fun (base, i) =>
    mergedTin base (column tables i) (sizeSum ((column tables i).map (·.label .backlog)))

/-- The snapshot that merging queues under a parent gives. -/
def mergedQueue (parent first : Snapshot) (rest : List Snapshot) : Snapshot :=
  { kept first with
    handle := parent.handle
    interface := parent.interface
    rawHeader := parent.rawHeader
    updatedAt := parent.updatedAt
    totals := .ofFn fun t => sumOf ((first :: rest).map (·.totals.get t))
    backlogBytes := sizeSum ((first :: rest).map (·.backlogBytes))
    memoryUsed := sizeSum ((first :: rest).map (·.memoryUsed))
    tins := mergedTins ((first :: rest).map (·.tins)) }

theorem mergeTins_of_addable {tables : List (List Tin)}
    (h : ∀ sizes ∈ tinBacklogs tables, Addable sizes) : mergeTins tables = .ok (mergedTins tables) := by
  unfold tinBacklogs at h
  rw [List.forall_mem_map] at h
  refine mapM_eq_ok fun b hb => ?_
  have hcolumn : mergeColumn b.1 (column tables b.2) = _ := mergeColumn_eq b.1 (column tables b.2)
  rw [addSizes_of_addable (h b hb)] at hcolumn
  exact hcolumn

/-- **A merge of queues**, where it gives a snapshot. -/
theorem mergeQueues_of_mergeable {first : Snapshot} {rest : List Snapshot}
    (h : Mergeable (first :: rest)) (parent : Snapshot) :
    mergeQueues parent (first :: rest) = .ok (mergedQueue parent first rest) := by
  unfold Mergeable addends at h
  simp only [List.forall_mem_cons] at h
  obtain ⟨hbacklog, hmemory, htins⟩ := h
  rw [mergeQueues_eq, addSizes_of_addable hbacklog, addSizes_of_addable hmemory,
    mergeTins_of_addable htins]
  rfl

end MultiQueue

/-! ## Another order -/

theorem Addable.perm {xs ys : List Text} (hperm : xs.Perm ys) (h : Addable xs) : Addable ys := by
  obtain ⟨hlegible, hsum⟩ := h
  refine ⟨fun t ht => hlegible t (hperm.mem_iff.mpr ht), ?_⟩
  rwa [← (hperm.map Size.bytes).sum_eq]

namespace MultiQueue

theorem sizeSum_perm {xs ys : List Text} (hperm : xs.Perm ys) : sizeSum xs = sizeSum ys := by
  rw [sizeSum, (hperm.map Size.bytes).sum_eq, sizeSum]

theorem sumOf_perm {xs ys : List Int} (hperm : xs.Perm ys) : sumOf xs = sumOf ys := hperm.sum_eq

theorem column_perm {tables tables' : List (List Tin)} (hperm : tables.Perm tables') (i : Nat) :
    (column tables i).Perm (column tables' i) :=
  hperm.filterMap _

/-- **Whether queues can be merged** is no matter of their order. -/
theorem Mergeable.perm {first : Snapshot} {rest rest' : List Snapshot} (hperm : rest.Perm rest')
    (h : Mergeable (first :: rest)) : Mergeable (first :: rest') := by
  have hall := hperm.cons first
  unfold Mergeable addends at h ⊢
  simp only [List.forall_mem_cons] at h ⊢
  obtain ⟨hbacklog, hmemory, htins⟩ := h
  refine ⟨hbacklog.perm (hall.map _), hmemory.perm (hall.map _), ?_⟩
  simp only [tinBacklogs, List.forall_mem_map] at htins ⊢
  exact fun b hb => (htins b hb).perm ((column_perm (hall.map _) b.2).map _)

/-! ### Tins -/

theorem label_mergedTin (base : Tin) (column : List Tin) (backlog : Text) {l : TinLabel}
    (hl : l.isDelay = true) :
    (mergedTin base column backlog).label l = worstDelay (column.map (·.label l)) := by
  cases l with
  | pkDelay => rfl
  | avDelay => rfl
  | spDelay => rfl
  | _ => cases hl

/-- Tins in another order make up a tin that differs in its delays at most. -/
theorem mergedTin_perm (base : Tin) {column column' : List Tin} (hperm : column.Perm column')
    (backlog : Text) : (mergedTin base column backlog).withoutDelays
      = (mergedTin base column' backlog).withoutDelays := by
  have hcounts (c : TinCounter) := hperm.map (·.count c)
  refine congrArg₂ (Tin.mk base.name) ?_ ?_
  · refine congrArg TinLabels.ofFn (funext fun l => ?_)
    cases l <;> rfl
  · simp only [mergedTin]
    refine congrArg TinCounters.ofFn (funext fun c => ?_)
    cases c with
    | maxLen => exact (hcounts .maxLen).foldl_eq _
    | quantum => rfl
    | _ => exact sumOf_perm (hcounts _)

theorem getElem?_mergedTins (tables : List (List Tin)) (i : Nat) : (mergedTins tables)[i]? =
    (tables.headD [])[i]?.map fun base =>
      mergedTin base (column tables i) (sizeSum ((column tables i).map (·.label .backlog))) := by
  simp [mergedTins, List.getElem?_zipIdx, Function.comp_def]

/-- Tables in another order, of which the first is the same, make up tins that differ in their delays at
most. -/
theorem mergedTins_perm {tables tables' : List (List Tin)} (hperm : tables.Perm tables')
    (hfirst : tables.headD [] = tables'.headD []) :
    (mergedTins tables).map Tin.withoutDelays = (mergedTins tables').map Tin.withoutDelays := by
  refine List.ext_getElem? fun i => ?_
  have hcolumn := column_perm hperm i
  rw [List.getElem?_map, List.getElem?_map, getElem?_mergedTins, getElem?_mergedTins, hfirst,
    sizeSum_perm (hcolumn.map _), Option.map_map, Option.map_map]
  exact congrArg (Option.map · _) (funext fun base => mergedTin_perm base hcolumn _)

/-! ### Queues -/

/-- Queues in another order make up a snapshot with the same numbers. -/
theorem mergedQueue_perm (parent first : Snapshot) {rest rest' : List Snapshot}
    (hperm : rest.Perm rest') : SameNumbers ((first :: rest).map (·.tins))
      (mergedQueue parent first rest) (mergedQueue parent first rest') where
  rest := by
    have hall := hperm.cons first
    have htotals (t : Total) := sumOf_perm (hall.map (·.totals.get t))
    unfold mergedQueue Snapshot.withoutDelays
    simp only [mergedTins_perm (hall.map (·.tins)) rfl, sizeSum_perm (hall.map (·.backlogBytes)),
      sizeSum_perm (hall.map (·.memoryUsed)), funext htotals]
  delays := by
    intro i t t' ht ht' l hl hcolumn
    have hcolumns := column_perm ((hperm.cons first).map (·.tins)) i
    have ht : (mergedTins ((first :: rest).map (·.tins)))[i]? = some t := ht
    have ht' : (mergedTins ((first :: rest').map (·.tins)))[i]? = some t' := ht'
    rw [getElem?_mergedTins, Option.map_eq_some_iff] at ht ht'
    obtain ⟨base, -, rfl⟩ := ht
    obtain ⟨base', -, rfl⟩ := ht'
    rw [label_mergedTin _ _ _ hl, label_mergedTin _ _ _ hl]
    exact worstDelay_perm (hcolumns.map _) hcolumn

/-- **The order of hardware queues does not change the numbers.** When some children can be merged, they can
be merged in every order that leaves the first in its place, and the snapshots have the same numbers. -/
theorem mergeQueues_reordered (parent : Snapshot) {children children' : List Snapshot}
    (hperm : children.Perm children') (hfirst : children.head? = children'.head?) {s : Snapshot}
    (h : mergeQueues parent children = .ok s) :
    ∃ s', mergeQueues parent children' = .ok s' ∧ SameNumbers (children.map (·.tins)) s s' := by
  cases children with
  | nil =>
    obtain rfl := hperm.nil_eq
    obtain rfl := Except.ok.inj h
    exact ⟨identityOnly parent, rfl, rfl, fun i t t' ht => by simp [identityOnly] at ht⟩
  | cons first rest =>
    obtain ⟨rest', rfl⟩ : ∃ rest', children' = first :: rest' :=
      List.head?_eq_some_iff.mp hfirst.symm
    have hrest : rest.Perm rest' := (List.perm_cons first).mp hperm
    have hmergeable := succeeds_mergeQueues.mp ⟨s, h⟩
    obtain rfl := Except.ok.inj (h.symm.trans (mergeQueues_of_mergeable hmergeable parent))
    exact ⟨mergedQueue parent first rest', mergeQueues_of_mergeable (hmergeable.perm hrest) parent,
      mergedQueue_perm parent first hrest⟩

/-- A queue whose tins have these peak delays and nothing to send. -/
def delayedQueue (delays : List Text) : Snapshot :=
  { backlogBytes := "0b", memoryUsed := "0b"
    tins := delays.map fun pkDelay => { labels := { pkDelay, backlog := "0b" } } }

/-- A queue with two tins, one of them without delay. -/
def calmQueue : Snapshot := delayedQueue ["500us", ""]

/-- A queue with one tin. -/
def shortQueue : Snapshot := delayedQueue ["1ms"]

/-- A queue whose first delay is that of `shortQueue` in another spelling. -/
def longQueue : Snapshot := delayedQueue ["1000us", "3us"]

/-- The order decides how the worst delay is spelled, and nothing else. -/
theorem mergeQueues_reordered_ties : ∃ s s',
    mergeQueues {} [calmQueue, shortQueue, longQueue] = .ok s ∧
      mergeQueues {} [calmQueue, longQueue, shortQueue] = .ok s' ∧
      s = delayedQueue ["1ms", "3us"] ∧ s' = delayedQueue ["1000us", "3us"] ∧
      s.withoutDelays = s'.withoutDelays ∧
      Binary64.Equals (Delay.microseconds "1ms") (Delay.microseconds "1000us") := by
  have h : mergeQueues {} [calmQueue, shortQueue, longQueue]
      = .ok (delayedQueue ["1ms", "3us"]) := by decide +kernel
  have h' : mergeQueues {} [calmQueue, longQueue, shortQueue]
      = .ok (delayedQueue ["1000us", "3us"]) := by decide +kernel
  have hperm : [calmQueue, shortQueue, longQueue].Perm [calmQueue, longQueue, shortQueue] :=
    (List.Perm.swap _ _ []).cons _
  obtain ⟨s', hs', hsame⟩ := mergeQueues_reordered {} hperm rfl h
  obtain rfl := Except.ok.inj (h'.symm.trans hs')
  exact ⟨_, _, h, h', rfl, rfl, hsame.rest,
    hsame.delays 0 _ _ rfl rfl .pkDelay rfl (by decide +kernel)⟩

end MultiQueue

end CakeMonitor
