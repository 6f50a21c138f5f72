import CakeMonitor.Proofs.MultiQueue.Accounting
import CakeMonitor.Proofs.Number.Digits
import CakeMonitor.Proofs.Number.Spoiled

/-!
# When queues can be merged

Counters of several queues are added as numbers. Sizes are kept as text: they are read, added and
printed again, and this is where a merge may fail.

* `Addable`: sizes that can be read, with a sum that can be printed.
* `MultiQueue.addends`: the sizes that merging some queues adds up.
* `MultiQueue.succeeds_merge`: a merge gives snapshots exactly when the sizes under each parent can be
  added.
-/

namespace CakeMonitor

/-- Sizes that can be read, with a sum that can be printed. -/
def Addable (sizes : List Text) : Prop :=
  (∀ t ∈ sizes, Size.Legible t) ∧ Readable (sizes.map Size.bytes).sum

theorem succeeds_printInt {n : Nat} : Succeeds (printInt n) ↔ Readable n := by
  rw [printInt, Int.natAbs_natCast, Readable]
  split
  · next hshort => exact iff_of_true (succeeds_ok _) hshort
  · next hlong => exact iff_of_false (not_succeeds_error _) hlong

theorem sumOf_ofNat (l : List Nat) : sumOf (l.map Int.ofNat) = (l.sum : Int) := by
  rw [sumOf_eq_sum]
  exact (map_list_sum (Nat.castAddMonoidHom Int) l).symm

namespace MultiQueue

/-- Adding sizes fails for one that cannot be read and for a sum that cannot be printed. -/
theorem succeeds_addSizes {sizes : List Text} : Succeeds (addSizes sizes) ↔ Addable sizes := by
  have hread : Succeeds (sizes.mapM Size.read) ↔ ∀ t ∈ sizes, Size.Legible t := by
    simp only [succeeds_mapM, Size.succeeds_read]
  constructor
  · rintro ⟨total, htotal⟩
    unfold addSizes at htotal
    obtain ⟨bytes, hbytes, hprint⟩ := bind_eq_ok.mp htotal
    have hlegible := hread.mp ⟨bytes, hbytes⟩
    have hvalues := mapM_eq_ok fun t ht => Size.read_of_legible (hlegible t ht)
    obtain rfl := Except.ok.inj (hbytes.symm.trans hvalues)
    rw [sumOf_ofNat] at hprint
    exact ⟨hlegible, succeeds_printInt.mp (succeeds_map.mp ⟨total, hprint⟩)⟩
  · rintro ⟨hlegible, hsum⟩
    have hvalues := mapM_eq_ok fun t ht => Size.read_of_legible (hlegible t ht)
    unfold addSizes
    rw [hvalues]
    show Succeeds (Size.print (sumOf ((sizes.map Size.bytes).map Int.ofNat)))
    rw [sumOf_ofNat, Size.print, succeeds_map]
    exact succeeds_printInt.mpr hsum

/-! ## Under one parent -/

/-- The backlogs of the tins of some queues, position by position of the first table. -/
def tinBacklogs (tables : List (List Tin)) : List (List Text) :=
  (tables.headD []).zipIdx.map fun (_, i) => (column tables i).map (·.label .backlog)

/-- The sizes that merging some queues adds up: their backlogs, their memory, and the backlogs of
their tins. -/
def addends (children : List Snapshot) : List (List Text) :=
  children.map (·.backlogBytes) :: children.map (·.memoryUsed)
    :: tinBacklogs (children.map (·.tins))

/-- The children of a parent can be merged into it. -/
def Mergeable (children : List Snapshot) : Prop := ∀ sizes ∈ addends children, Addable sizes

theorem succeeds_mergeColumn {base : Tin} {column : List Tin} :
    Succeeds (mergeColumn base column) ↔ Addable (column.map (·.label .backlog)) :=
  (succeeds_bind_pure _).trans succeeds_addSizes

theorem succeeds_mergeTins {tables : List (List Tin)} :
    Succeeds (mergeTins tables) ↔ ∀ sizes ∈ tinBacklogs tables, Addable sizes := by
  unfold mergeTins tinBacklogs
  rw [succeeds_mapM, List.forall_mem_map]
  exact forall₂_congr fun _ _ => succeeds_mergeColumn

theorem mergeable_nil : Mergeable [] := by
  have hempty : Addable [] := ⟨by simp, by unfold Readable; decide⟩
  intro sizes hsizes
  simp only [addends, tinBacklogs, List.map_nil, List.headD_nil, List.zipIdx_nil, List.mem_cons,
    List.not_mem_nil, or_false, or_self] at hsizes
  rw [hsizes]
  exact hempty

/-- Merging queues fails only in their sizes; the parent does not matter. -/
theorem succeeds_mergeQueues {parent : Snapshot} {children : List Snapshot} :
    Succeeds (mergeQueues parent children) ↔ Mergeable children := by
  cases children with
  | nil => exact iff_of_true (succeeds_ok _) mergeable_nil
  | cons first rest =>
    unfold mergeQueues Mergeable addends
    rw [List.forall_mem_cons, List.forall_mem_cons]
    rw [succeeds_bind_and fun _ _ => succeeds_bind_and fun _ _ => succeeds_bind_pure _,
      succeeds_addSizes, succeeds_addSizes, succeeds_mergeTins]

/-! ## A whole merge -/

theorem hasParent_cons {b : Block} {rest : List Block} {k : Key} :
    hasParent (b :: rest) k = true ↔ parentKey? b = some k ∨ hasParent rest k = true := by
  simp [hasParent]

theorem hasParent_concat {b : Block} {earlier : List Block} {k : Key} :
    hasParent (earlier ++ [b]) k = true ↔ hasParent earlier k = true ∨ parentKey? b = some k := by
  simp [hasParent]

theorem succeeds_outputsAt {blocks earlier : List Block} {b : Block} :
    Succeeds (outputsAt blocks earlier b) ↔ ∀ k, parentKey? b = some k →
      hasParent earlier k = false → Mergeable (children blocks k) := by
  unfold outputsAt
  cases hkey : parentKey? b with
  | none => exact iff_of_true (succeeds_ok _) nofun
  | some k =>
    cases hearlier : hasParent earlier k with
    | true =>
      simp only [hearlier, if_true]
      refine iff_of_true (succeeds_ok _) fun k' hk' hfirst => ?_
      obtain rfl := Option.some.inj hk'
      rw [hearlier] at hfirst
      cases hfirst
    | false =>
      simp only [hearlier, Bool.false_eq_true, if_false, succeeds_map, succeeds_mergeQueues]
      constructor
      · intro h k' hk' _
        obtain rfl := Option.some.inj hk'
        exact h
      · intro h
        exact h k rfl hearlier

/-- Behind some blocks, the parents whose key is new have to be merged. -/
theorem succeeds_mergeRest (blocks : List Block) : ∀ rest earlier : List Block,
    Succeeds (mergeRest blocks earlier rest) ↔ ∀ k, hasParent rest k = true →
      hasParent earlier k = false → Mergeable (children blocks k)
  | [], earlier => iff_of_true (succeeds_ok _) nofun
  | b :: rest, earlier => by
    have hrest (here : List Snapshot) :=
      (succeeds_bind_pure (here ++ ·)).trans (succeeds_mergeRest blocks rest (earlier ++ [b]))
    rw [mergeRest_cons]
    refine (succeeds_bind_and fun here _ => hrest here).trans ?_
    rw [succeeds_outputsAt, ← forall_and]
    refine forall_congr' fun k => ?_
    rw [hasParent_cons, ← Bool.not_eq_true, ← Bool.not_eq_true, hasParent_concat]
    tauto

/-- **A merge gives snapshots** exactly when the children of each parent can be merged. -/
theorem succeeds_merge {blocks : List Block} : Succeeds (merge blocks) ↔
    ∀ k, hasParent blocks k = true → Mergeable (children blocks k) := by
  rw [merge, succeeds_mergeRest]
  exact forall₂_congr fun k _ => forall_prop_of_true rfl

end MultiQueue

end CakeMonitor
