import CakeMonitor.Proofs.MultiQueue.Local

/-!
# Where absorbed queues stand

A child that goes into its parent leaves no output of its own, and the parent looks for its children in
the whole report. So a child may be printed in front of its parent, between other devices or behind them:
only the order of the other blocks counts, and the order of the children of each parent.

* `unabsorbed`: the blocks that a merge does not absorb.
* `Rearranged`: lists of blocks that differ in the places of absorbed ones.
* `mergeRest_unabsorbed`: absorbed blocks are passed over.
* `Rearranged.move`: an absorbed block moves past any that is not a child of the same parent.
* `merge_rearranged`: rearranged blocks are merged alike.
-/

namespace CakeMonitor.MultiQueue

/-- The blocks that no parent among `blocks` absorbs, in order. -/
def unabsorbed (blocks : List Block) : List Block := blocks.filter fun b => !isAbsorbed blocks b

/-- Lists of blocks that differ in the places of absorbed children alone: parents, roots and orphans
stand in the same order, and so do the children of each parent. -/
structure Rearranged (blocks blocks' : List Block) : Prop where
  unabsorbed : unabsorbed blocks = unabsorbed blocks'
  children : ∀ k, hasParent blocks k = true → children blocks k = children blocks' k

variable {blocks blocks' : List Block} {b c : Block} {k : Key}

/-- A parent is not absorbed. -/
theorem isAbsorbed_of_parentKey? (h : parentKey? b = some k) : isAbsorbed blocks b = false := by
  rw [isAbsorbed, childKey?_of_parentKey? h]
  rfl

theorem outputsAt_of_isAbsorbed (h : isAbsorbed blocks b = true) (earlier : List Block) :
    outputsAt blocks earlier b = .ok [] := by
  obtain ⟨k, hchild, -⟩ := isAbsorbed_iff.mp h
  rw [outputsAt, parentKey?_of_childKey? hchild, h]
  rfl

/-! ## The blocks that are left -/

/-- Without the absorbed blocks there are the same parents. -/
theorem hasParent_unabsorbed (blocks : List Block) (k : Key) :
    hasParent (unabsorbed blocks) k = hasParent blocks k := by
  unfold unabsorbed hasParent
  rw [List.any_filter]
  refine congrArg blocks.any (funext fun b => ?_)
  by_cases hb : parentKey? b = some k
  · simp [hb, isAbsorbed_of_parentKey? hb]
  · simp [hb]

/-- Without a parent there are the same children too. -/
theorem children_unabsorbed (h : hasParent blocks k = false) :
    children (unabsorbed blocks) k = children blocks k := by
  refine (filter_of_names fun b _ hb => ?_).2
  rcases hb with hb | hb
  · rw [isAbsorbed_of_parentKey? hb]
    rfl
  · rw [isAbsorbed, hb, Option.any_some, h]
    rfl

namespace Rearranged

theorem hasParent_eq (h : Rearranged blocks blocks') (k : Key) :
    hasParent blocks k = hasParent blocks' k := by
  rw [← hasParent_unabsorbed blocks, h.unabsorbed, hasParent_unabsorbed blocks']

theorem children_eq (h : Rearranged blocks blocks') (k : Key) :
    MultiQueue.children blocks k = MultiQueue.children blocks' k := by
  cases hparent : hasParent blocks k with
  | true => exact h.children k hparent
  | false =>
    have hparent' : hasParent blocks' k = false := by rw [← h.hasParent_eq, hparent]
    rw [← children_unabsorbed hparent, h.unabsorbed, children_unabsorbed hparent']

end Rearranged

/-! ## Merging without the absorbed blocks -/

/-- A block that is no parent need not be among the earlier ones. -/
theorem mergeRest_forget (h : parentKey? b = none) (blocks earlier rest : List Block) :
    mergeRest blocks (earlier ++ [b]) rest = mergeRest blocks earlier rest := by
  refine mergeRest_congr fun _ _ k _ => ⟨rfl, rfl, ?_⟩
  rw [hasParent_append]
  simp [hasParent, h]

/-- **Absorbed blocks are passed over.** -/
theorem mergeRest_unabsorbed (blocks : List Block) : ∀ rest earlier : List Block,
    mergeRest blocks earlier rest
      = mergeRest blocks earlier (rest.filter fun b => !isAbsorbed blocks b)
  | [], _ => rfl
  | b :: rest, earlier => by
    rw [mergeRest_cons, mergeRest_unabsorbed blocks rest (earlier ++ [b])]
    cases hb : isAbsorbed blocks b with
    | true =>
      obtain ⟨k, hchild, -⟩ := isAbsorbed_iff.mp hb
      rw [outputsAt_of_isAbsorbed hb, mergeRest_forget (parentKey?_of_childKey? hchild),
        List.filter_cons_of_neg (by simp [hb])]
      exact bind_pure (mergeRest blocks earlier (rest.filter fun b => !isAbsorbed blocks b))
    | false =>
      rw [List.filter_cons_of_pos (by simp [hb]), mergeRest_cons]

/-- A rearranged list is merged like the list. -/
theorem Rearranged.merge_eq (h : Rearranged blocks blocks') : merge blocks = merge blocks' := by
  have hsame : mergeRest blocks [] (MultiQueue.unabsorbed blocks)
      = mergeRest blocks' [] (MultiQueue.unabsorbed blocks) :=
    mergeRest_congr fun _ _ k _ => ⟨h.hasParent_eq k, h.children_eq k, rfl⟩
  calc merge blocks = mergeRest blocks [] (MultiQueue.unabsorbed blocks) :=
        mergeRest_unabsorbed blocks blocks []
    _ = mergeRest blocks' [] (MultiQueue.unabsorbed blocks') := by rw [hsame, h.unabsorbed]
    _ = merge blocks' := (mergeRest_unabsorbed blocks' blocks' []).symm

/-! ## Moving a child -/

theorem isAbsorbed_congr (h : ∀ k, hasParent blocks k = hasParent blocks' k) (b : Block) :
    isAbsorbed blocks b = isAbsorbed blocks' b := by
  unfold isAbsorbed
  rw [funext h]

/-- **An absorbed child moves past blocks** that are not children of its parent. -/
theorem Rearranged.move (l m r : List Block) (hc : isAbsorbed (l ++ c :: (m ++ r)) c = true)
    (hm : ∀ b ∈ m, childKey? b ≠ childKey? c) :
    Rearranged (l ++ c :: (m ++ r)) (l ++ (m ++ c :: r)) := by
  have hperm : (l ++ c :: (m ++ r)).Perm (l ++ (m ++ c :: r)) :=
    List.perm_middle.symm.append_left l
  have hparent (k : Key) :
      hasParent (l ++ c :: (m ++ r)) k = hasParent (l ++ (m ++ c :: r)) k := hperm.any_eq
  have hkept := isAbsorbed_congr hparent
  refine ⟨?_, fun k _ => ?_⟩
  · unfold MultiQueue.unabsorbed
    rw [← funext hkept]
    simp [hc]
  · have hcons (rest : List Block) : c :: rest = [c] ++ rest := rfl
    rw [hcons, hcons r]
    simp only [children_append]
    by_cases hk : childKey? c = some k
    · have hnone : MultiQueue.children m k = [] := by
        rw [MultiQueue.children, List.map_eq_nil_iff, List.filter_eq_nil_iff]
        exact fun b hb hb' => hm b hb ((of_decide_eq_true hb').trans hk.symm)
      rw [hnone, List.nil_append, List.nil_append]
    · have hnone : MultiQueue.children [c] k = [] := by simp [MultiQueue.children, hk]
      rw [hnone, List.nil_append, List.nil_append]

/-- **Where absorbed children stand does not matter.** Lists of blocks with the same blocks that are not
absorbed, in one order, and the same children of each parent, in one order, are merged alike, be it that
the merge fails. So a child moves to any place, as long as its siblings keep their order. -/
theorem merge_rearranged :
    (∀ blocks blocks' : List Block, Rearranged blocks blocks' → merge blocks = merge blocks') ∧
      ∀ (l m r : List Block) (c : Block), isAbsorbed (l ++ c :: (m ++ r)) c = true →
        (∀ b ∈ m, childKey? b ≠ childKey? c) →
          merge (l ++ c :: (m ++ r)) = merge (l ++ (m ++ c :: r)) :=
  ⟨fun _ _ h => h.merge_eq, fun l m r _ hc hm => (Rearranged.move l m r hc hm).merge_eq⟩

/-- The blocks of `mixedBlocks` with both children right behind their parent. -/
def gatheredBlocks : List Block :=
  [{ snapshot := { interface := "eth0", handle := "1" }, attachment := .multiQueue },
   { snapshot := queueOf "eth0" 10, attachment := .under "1" },
   { snapshot := queueOf "eth0" 20, attachment := .under "1" },
   { snapshot := queueOf "eth1" 5, attachment := .under "1" }]

theorem rearranged_mixedBlocks : Rearranged mixedBlocks gatheredBlocks :=
  Rearranged.move [] (gatheredBlocks.take 1) (gatheredBlocks.drop 2) (by decide) (by decide)

/-- A child in front of its parent, right behind it, and behind another device. -/
theorem merge_rearranged_mixedBlocks :
    (Rearranged mixedBlocks gatheredBlocks ∧ merge mixedBlocks = merge gatheredBlocks) ∧
      merge gatheredBlocks = merge
        [{ snapshot := { interface := "eth0", handle := "1" }, attachment := .multiQueue },
         { snapshot := queueOf "eth0" 10, attachment := .under "1" },
         { snapshot := queueOf "eth1" 5, attachment := .under "1" },
         { snapshot := queueOf "eth0" 20, attachment := .under "1" }] :=
  ⟨⟨rearranged_mixedBlocks, merge_rearranged.1 _ _ rearranged_mixedBlocks⟩,
    merge_rearranged.2 (gatheredBlocks.take 2) (gatheredBlocks.drop 3) []
      { snapshot := queueOf "eth0" 20, attachment := .under "1" } (by decide) (by decide)⟩

end CakeMonitor.MultiQueue
