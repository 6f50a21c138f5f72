import CakeMonitor.Proofs.MultiQueue.Merged
import Mathlib.Data.List.Nodup
import Mathlib.Data.Nat.Find

/-!
# Merging neither loses nor duplicates a queue

Each output of a merge comes from a block that is kept or from a parent and its children. Every block
but the parents goes into one output, so whatever is added up is the same before and after.

* `Origin`, `Gives`: where an output comes from, and what it then is.
* `Accounts`: an origin for each output that accounts for all blocks.
* `accounts_origins`: the origins of a merge account for its blocks.
* `merge_accounts`: with the sums of the counters.
-/

namespace CakeMonitor.MultiQueue

/-! ## Origins -/

/-- Where an output comes from: a block that is kept, or a parent with the children that are absorbed
into it. Blocks are told apart by their positions. -/
inductive Origin where
  | kept (position : Nat)
  | merged (position : Nat) (children : List Nat)
  deriving DecidableEq

namespace Origin

/-- The position at which the output stands. -/
def position : Origin → Nat
  | kept i => i
  | merged i _ => i

/-- The blocks whose statistics are in the output. -/
def sources : Origin → List Nat
  | kept i => [i]
  | merged _ js => js

end Origin

/-- The positions of the blocks of a kind. -/
def positions (p : Block → Bool) (blocks : List Block) : List Nat :=
  (blocks.zipIdx.filter fun b => p b.1).map (·.2)

/-- The positions of the children that name a key. -/
def childPositions (blocks : List Block) (k : Key) : List Nat :=
  positions (fun c => childKey? c = some k) blocks

/-- Whether a block is a parent. -/
def isParent (b : Block) : Bool := (parentKey? b).isSome

/-- What comes from an origin. A kept block is no parent and its snapshot stays as it is; a parent is
the first with its key, and it absorbs the children that name this key. -/
inductive Gives (blocks : List Block) : Origin → Snapshot → Prop
  | kept {i : Nat} {b : Block} (block : blocks[i]? = some b) (other : parentKey? b = none) :
      Gives blocks (.kept i) b.snapshot
  | merged {i : Nat} {b : Block} {k : Key} {s : Snapshot} (block : blocks[i]? = some b)
      (parent : parentKey? b = some k) (first : hasParent (blocks.take i) k = false)
      (merge : mergeQueues b.snapshot (children blocks k) = .ok s) :
      Gives blocks (.merged i (childPositions blocks k)) s

/-- **Origins account for all blocks** of a merge: outputs stand in the order of the blocks, each key
of a parent has one output, and each other block is in one output. -/
structure Accounts (blocks : List Block) (outputs : List Snapshot) (origins : List Origin) : Prop where
  gives : List.Forall₂ (Gives blocks) origins outputs
  ordered : (origins.map Origin.position).Pairwise (· < ·)
  parents : ∀ k, hasParent blocks k = true → ∃! o, o ∈ origins ∧
    ∃ i js b, o = .merged i js ∧ blocks[i]? = some b ∧ parentKey? b = some k
  once : (origins.flatMap Origin.sources).Perm (positions (fun b => !isParent b) blocks)

/-! ## Positions -/

theorem mem_positions {p : Block → Bool} {blocks : List Block} {i : Nat} :
    i ∈ positions p blocks ↔ ∃ b, blocks[i]? = some b ∧ p b = true := by
  unfold positions
  simp only [List.mem_map, List.mem_filter, Prod.exists, exists_eq_right,
    List.mk_mem_zipIdx_iff_getElem?]

theorem mem_childPositions {blocks : List Block} {k : Key} {i : Nat} :
    i ∈ childPositions blocks k ↔ ∃ b, blocks[i]? = some b ∧ childKey? b = some k := by
  unfold childPositions
  simp only [mem_positions, decide_eq_true_eq]

theorem pairwise_zipIdx (blocks : List Block) : blocks.zipIdx.Pairwise fun b c => b.2 < c.2 := by
  rw [← List.pairwise_map, List.zipIdx_map_snd]
  exact List.pairwise_lt_range'

theorem nodup_positions (p : Block → Bool) (blocks : List Block) : (positions p blocks).Nodup := by
  unfold positions
  exact ((pairwise_zipIdx blocks).filter _).map _ fun _ _ hlt => Nat.ne_of_lt hlt

/-- A number of the snapshot in a position, zero behind the last. -/
def valueAt (f : Snapshot → Int) (blocks : List Block) (i : Nat) : Int :=
  (blocks[i]?.map fun b => f b.snapshot).getD 0

theorem map_valueAt_positions (f : Snapshot → Int) (p : Block → Bool) (blocks : List Block) :
    (positions p blocks).map (valueAt f blocks) = (blocks.filter p).map fun b => f b.snapshot := by
  have hvalue : ∀ b ∈ blocks.zipIdx, valueAt f blocks b.2 = f b.1.snapshot := by
    rintro ⟨b, i⟩ hb
    unfold valueAt
    rw [List.mk_mem_zipIdx_iff_getElem?.mp hb]
    rfl
  have hblocks : (blocks.zipIdx.filter fun b => p b.1).map (·.1) = blocks.filter p := by
    conv_rhs => rw [← List.zipIdx_map_fst 0 blocks, List.filter_map]
    rfl
  rw [positions, List.map_map, ← hblocks, List.map_map]
  exact List.map_congr_left fun b hb => hvalue b (List.mem_of_mem_filter hb)

theorem map_valueAt_childPositions (f : Snapshot → Int) (blocks : List Block) (k : Key) :
    (childPositions blocks k).map (valueAt f blocks) = (children blocks k).map f := by
  rw [childPositions, map_valueAt_positions, children, List.map_map]
  rfl

/-! ## The parents -/

theorem hasParent_iff {blocks : List Block} {k : Key} :
    hasParent blocks k = true ↔
      ∃ (i : Nat) (b : Block), blocks[i]? = some b ∧ parentKey? b = some k := by
  unfold hasParent
  rw [List.any_eq_true]
  constructor
  · rintro ⟨b, hb, hk⟩
    obtain ⟨i, hi⟩ := List.mem_iff_getElem?.mp hb
    exact ⟨i, b, hi, by simpa using hk⟩
  · rintro ⟨i, b, hi, hk⟩
    exact ⟨b, List.mem_iff_getElem?.mpr ⟨i, hi⟩, by simpa using hk⟩

/-- Among the blocks in front of a position there is a parent with a key when one stands there. -/
theorem hasParent_take_iff {blocks : List Block} {n : Nat} {k : Key} :
    hasParent (blocks.take n) k = true ↔ ∃ i < n, ∃ b, blocks[i]? = some b ∧ parentKey? b = some k := by
  rw [hasParent_iff]
  simp only [List.getElem?_take]
  constructor
  · rintro ⟨i, b, hi, hk⟩
    by_cases hlt : i < n
    · rw [if_pos hlt] at hi
      exact ⟨i, hlt, b, hi, hk⟩
    · rw [if_neg hlt] at hi
      cases hi
  · rintro ⟨i, hlt, b, hi, hk⟩
    exact ⟨i, b, by rw [if_pos hlt, hi], hk⟩

/-- A key that a parent has is the key of a first parent. -/
theorem exists_first {blocks : List Block} {k : Key} (h : hasParent blocks k = true) :
    ∃ (i : Nat) (b : Block), blocks[i]? = some b ∧ parentKey? b = some k ∧
      hasParent (blocks.take i) k = false := by
  have hex : ∃ i : Nat, ∃ b : Block, blocks[i]? = some b ∧ parentKey? b = some k := hasParent_iff.mp h
  classical
  obtain ⟨b, hb, hk⟩ := Nat.find_spec hex
  refine ⟨Nat.find hex, b, hb, hk, ?_⟩
  rw [← Bool.not_eq_true, hasParent_take_iff]
  rintro ⟨j, hj, hfound⟩
  exact Nat.find_min hex hj hfound

/-- There is one first parent. -/
theorem first_unique {blocks : List Block} {k : Key} {i j : Nat} {b c : Block}
    (hi : blocks[i]? = some b) (hb : parentKey? b = some k)
    (hfirst : hasParent (blocks.take i) k = false) (hj : blocks[j]? = some c)
    (hc : parentKey? c = some k) (hfirst' : hasParent (blocks.take j) k = false) : i = j := by
  rcases Nat.lt_trichotomy i j with hlt | heq | hlt
  · rw [hasParent_take_iff.mpr ⟨i, hlt, b, hi, hb⟩] at hfirst'
    cases hfirst'
  · exact heq
  · rw [hasParent_take_iff.mpr ⟨j, hlt, c, hj, hc⟩] at hfirst
    cases hfirst

/-- A child is no parent. -/
theorem parentKey?_of_childKey? {b : Block} {k : Key} (h : childKey? b = some k) :
    parentKey? b = none := by
  unfold childKey? at h
  unfold parentKey?
  split at h
  · next hunder => rw [hunder]
  · cases h

/-! ## The origins of a merge -/

/-- The origin of the output of a block, if it has one. -/
def originOf (blocks : List Block) (b : Block × Nat) : Option Origin :=
  match parentKey? b.1 with
  | some k =>
    if hasParent (blocks.take b.2) k then none
    else some (.merged b.2 (childPositions blocks k))
  | none => if isAbsorbed blocks b.1 then none else some (.kept b.2)

/-- The origins of all outputs. -/
def origins (blocks : List Block) : List Origin := blocks.zipIdx.filterMap (originOf blocks)

theorem position_of_originOf {blocks : List Block} {b : Block × Nat} {o : Origin}
    (h : originOf blocks b = some o) : o.position = b.2 := by
  unfold originOf at h
  split at h
  · split_ifs at h
    obtain rfl := Option.some.inj h
    rfl
  · split_ifs at h
    obtain rfl := Option.some.inj h
    rfl

theorem mem_origins {blocks : List Block} {o : Origin} : o ∈ origins blocks ↔
    ∃ (i : Nat) (b : Block), blocks[i]? = some b ∧ originOf blocks (b, i) = some o := by
  unfold origins
  simp only [List.mem_filterMap, Prod.exists, List.mk_mem_zipIdx_iff_getElem?]
  exact exists_comm

theorem originOf_eq_kept {blocks : List Block} {b : Block} {i j : Nat} :
    originOf blocks (b, i) = some (.kept j) ↔
      i = j ∧ parentKey? b = none ∧ isAbsorbed blocks b = false := by
  unfold originOf
  cases parentKey? b with
  | none => cases isAbsorbed blocks b <;> simp
  | some k => by_cases hk : hasParent (blocks.take i) k = true <;> simp [hk]

theorem originOf_eq_merged {blocks : List Block} {b : Block} {i j : Nat} {js : List Nat} :
    originOf blocks (b, i) = some (.merged j js) ↔ i = j ∧ ∃ k, parentKey? b = some k ∧
      hasParent (blocks.take i) k = false ∧
      childPositions blocks k = js := by
  unfold originOf
  cases parentKey? b with
  | none => cases isAbsorbed blocks b <;> simp
  | some k => by_cases hk : hasParent (blocks.take i) k = true <;> simp [hk]

theorem mem_origins_kept {blocks : List Block} {i : Nat} :
    .kept i ∈ origins blocks ↔
      ∃ b, blocks[i]? = some b ∧ parentKey? b = none ∧ isAbsorbed blocks b = false := by
  simp only [mem_origins, originOf_eq_kept]
  constructor
  · rintro ⟨j, b, hb, rfl, hother, hkept⟩
    exact ⟨b, hb, hother, hkept⟩
  · rintro ⟨b, hb, hother, hkept⟩
    exact ⟨i, b, hb, rfl, hother, hkept⟩

theorem mem_origins_merged {blocks : List Block} {i : Nat} {js : List Nat} :
    .merged i js ∈ origins blocks ↔ ∃ b k, blocks[i]? = some b ∧ parentKey? b = some k ∧
      hasParent (blocks.take i) k = false ∧
      childPositions blocks k = js := by
  simp only [mem_origins, originOf_eq_merged]
  constructor
  · rintro ⟨j, b, hb, rfl, k, hk⟩
    exact ⟨b, k, hb, hk⟩
  · rintro ⟨b, k, hb, hk⟩
    exact ⟨i, b, hb, rfl, k, hk⟩

/-- The outputs that stand at a block, at most one. -/
def outputsAt (blocks earlier : List Block) (b : Block) : Except NumberError (List Snapshot) :=
  match parentKey? b with
  | some k =>
    if hasParent earlier k then .ok []
    else (mergeQueues b.snapshot (children blocks k)).map ([·])
  | none => .ok (if isAbsorbed blocks b then [] else [b.snapshot])

theorem mergeRest_cons (blocks earlier : List Block) (b : Block) (rest : List Block) :
    mergeRest blocks earlier (b :: rest) = (outputsAt blocks earlier b >>= fun here =>
      mergeRest blocks (earlier ++ [b]) rest >>= fun others => .ok (here ++ others)) := by
  rw [mergeRest, outputsAt]
  cases parentKey? b with
  | none => rfl
  | some k => by_cases hk : hasParent earlier k = true <;> simp only [hk] <;> rfl

/-- The output at a block is what its origin gives. -/
theorem forall₂_outputsAt {blocks : List Block} {i : Nat} {b : Block} {outputs : List Snapshot}
    (hb : blocks[i]? = some b) (h : outputsAt blocks (blocks.take i) b = .ok outputs) :
    List.Forall₂ (Gives blocks) (originOf blocks (b, i)).toList outputs := by
  unfold outputsAt at h
  unfold originOf
  cases hkey : parentKey? b with
  | none =>
    rw [hkey] at h
    obtain rfl := Except.ok.inj h
    by_cases habsorbed : isAbsorbed blocks b = true
    · simp [habsorbed]
    · simpa [habsorbed] using Gives.kept hb hkey
  | some k =>
    rw [hkey] at h
    by_cases hk : hasParent (blocks.take i) k = true
    · simp only [if_pos hk] at h ⊢
      obtain rfl := Except.ok.inj h
      exact .nil
    · simp only [if_neg hk] at h ⊢
      obtain ⟨s, hs, rfl⟩ := map_eq_ok.mp h
      exact .cons (.merged hb hkey (by simpa using hk) hs) .nil

/-- The origins are those of the outputs. -/
theorem forall₂_mergeRest {blocks : List Block} :
    ∀ {rest : List Block} (earlier : List Block) {outputs : List Snapshot},
    earlier ++ rest = blocks → mergeRest blocks earlier rest = .ok outputs →
      List.Forall₂ (Gives blocks) ((rest.zipIdx earlier.length).filterMap (originOf blocks)) outputs
  | [], earlier, outputs, _, h => by
    obtain rfl := Except.ok.inj h
    exact .nil
  | b :: rest, earlier, outputs, hsplit, h => by
    have hblock : blocks[earlier.length]? = some b := by
      rw [← hsplit, List.getElem?_append_right (Nat.le_refl _), Nat.sub_self]
      rfl
    have htake : blocks.take earlier.length = earlier := by rw [← hsplit, List.take_left]
    rw [mergeRest_cons] at h
    obtain ⟨here, hhere, h⟩ := bind_eq_ok.mp h
    obtain ⟨others, hothers, h⟩ := bind_eq_ok.mp h
    obtain rfl := Except.ok.inj h
    have ih := forall₂_mergeRest (earlier ++ [b]) (by simpa using hsplit) hothers
    rw [List.length_append, List.length_singleton] at ih
    rw [← htake] at hhere
    have hfilter : (((b :: rest).zipIdx earlier.length).filterMap (originOf blocks))
        = (originOf blocks (b, earlier.length)).toList
          ++ (rest.zipIdx (earlier.length + 1)).filterMap (originOf blocks) := by
      rw [List.zipIdx_cons, List.filterMap_cons]
      cases originOf blocks (b, earlier.length) <;> rfl
    rw [hfilter]
    exact List.rel_append (forall₂_outputsAt hblock hhere) ih

theorem pairwise_origins (blocks : List Block) :
    (origins blocks).Pairwise fun o o' => o.position < o'.position := by
  refine (pairwise_zipIdx blocks).filterMap _ ?_
  intro b c hlt o ho o' ho'
  rw [position_of_originOf ho, position_of_originOf ho']
  exact hlt

theorem existsUnique_origin {blocks : List Block} {k : Key} (h : hasParent blocks k = true) :
    ∃! o, o ∈ origins blocks ∧
      ∃ i js b, o = .merged i js ∧ blocks[i]? = some b ∧ parentKey? b = some k := by
  obtain ⟨i, b, hi, hb, hfirst⟩ := exists_first h
  refine ⟨.merged i (childPositions blocks k), ?_, ?_⟩
  · exact ⟨mem_origins_merged.mpr ⟨b, k, hi, hb, hfirst, rfl⟩, i, _, b, rfl, hi, hb⟩
  · rintro _ ⟨hmem, j, js, c, rfl, hj, hc⟩
    obtain ⟨c', k', hj', hc', hfirst', rfl⟩ := mem_origins_merged.mp hmem
    obtain rfl := Option.some.inj (hj.symm.trans hj')
    obtain rfl := Option.some.inj (hc.symm.trans hc')
    rw [first_unique hi hb hfirst hj hc hfirst']

/-! ## Every block is in one output -/

theorem isAbsorbed_iff {blocks : List Block} {b : Block} :
    isAbsorbed blocks b = true ↔ ∃ k, childKey? b = some k ∧ hasParent blocks k = true := by
  unfold isAbsorbed
  cases childKey? b <;> simp

/-- A block that a merged output absorbs names the key of its parent, which is there. -/
theorem absorbed_of_mem {blocks : List Block} {i j : Nat} {js : List Nat}
    (h : .merged i js ∈ origins blocks) (hj : j ∈ js) :
    ∃ b, blocks[j]? = some b ∧ parentKey? b = none ∧ isAbsorbed blocks b = true := by
  obtain ⟨p, k, hp, hk, -, rfl⟩ := mem_origins_merged.mp h
  obtain ⟨b, hb, hchild⟩ := mem_childPositions.mp hj
  exact ⟨b, hb, parentKey?_of_childKey? hchild,
    isAbsorbed_iff.mpr ⟨k, hchild, hasParent_iff.mpr ⟨i, p, hp, hk⟩⟩⟩

/-- A kept block is in no merged output. -/
theorem not_mem_of_kept {blocks : List Block} {i j : Nat} {js : List Nat}
    (hkept : .kept j ∈ origins blocks) (hmerged : .merged i js ∈ origins blocks) : j ∉ js := by
  intro hj
  obtain ⟨b, hb, -, hfree⟩ := mem_origins_kept.mp hkept
  obtain ⟨c, hc, -, habsorbed⟩ := absorbed_of_mem hmerged hj
  obtain rfl := Option.some.inj (hb.symm.trans hc)
  rw [habsorbed] at hfree
  cases hfree

/-- Two outputs that share a block are the same. -/
theorem position_eq_of_shared {blocks : List Block} {o o' : Origin} (ho : o ∈ origins blocks)
    (ho' : o' ∈ origins blocks) {j : Nat} (hj : j ∈ o.sources) (hj' : j ∈ o'.sources) :
    o.position = o'.position := by
  cases o with
  | kept i =>
    obtain rfl := List.mem_singleton.mp hj
    cases o' with
    | kept i' => exact List.mem_singleton.mp hj'
    | merged i' js' => exact absurd hj' (not_mem_of_kept ho ho')
  | merged i js =>
    cases o' with
    | kept i' =>
      obtain rfl := List.mem_singleton.mp hj'
      exact absurd hj (not_mem_of_kept ho' ho)
    | merged i' js' =>
      obtain ⟨p, k, hp, hk, hfirst, rfl⟩ := mem_origins_merged.mp ho
      obtain ⟨p', k', hp', hk', hfirst', rfl⟩ := mem_origins_merged.mp ho'
      obtain ⟨b, hb, hchild⟩ := mem_childPositions.mp hj
      obtain ⟨b', hb', hchild'⟩ := mem_childPositions.mp hj'
      obtain rfl := Option.some.inj (hb.symm.trans hb')
      obtain rfl := Option.some.inj (hchild.symm.trans hchild')
      exact first_unique hp hk hfirst hp' hk' hfirst'

/-- The blocks in the outputs are those that are no parents. -/
theorem mem_flatMap_sources {blocks : List Block} {j : Nat} :
    j ∈ (origins blocks).flatMap Origin.sources ↔ j ∈ positions (fun b => !isParent b) blocks := by
  have hother (b : Block) : (!isParent b) = true ↔ parentKey? b = none := by
    unfold isParent
    cases parentKey? b <;> simp
  simp only [List.mem_flatMap, mem_positions, hother]
  constructor
  · rintro ⟨o, ho, hj⟩
    cases o with
    | kept i =>
      obtain rfl := List.mem_singleton.mp hj
      obtain ⟨b, hb, hnone, -⟩ := mem_origins_kept.mp ho
      exact ⟨b, hb, hnone⟩
    | merged i js =>
      obtain ⟨b, hb, hnone, -⟩ := absorbed_of_mem ho hj
      exact ⟨b, hb, hnone⟩
  · rintro ⟨b, hb, hnone⟩
    cases habsorbed : isAbsorbed blocks b with
    | false =>
      exact ⟨.kept j, mem_origins_kept.mpr ⟨b, hb, hnone, habsorbed⟩, List.mem_singleton_self j⟩
    | true =>
      obtain ⟨k, hchild, hparent⟩ := isAbsorbed_iff.mp habsorbed
      obtain ⟨i, p, hp, hk, hfirst⟩ := exists_first hparent
      refine ⟨_, mem_origins_merged.mpr ⟨p, k, hp, hk, hfirst, rfl⟩, ?_⟩
      exact mem_childPositions.mpr ⟨b, hb, hchild⟩

theorem nodup_flatMap_sources (blocks : List Block) :
    ((origins blocks).flatMap Origin.sources).Nodup := by
  rw [List.nodup_flatMap]
  constructor
  · intro o ho
    cases o with
    | kept i => exact List.pairwise_singleton _ i
    | merged i js =>
      obtain ⟨-, k, -, -, -, rfl⟩ := mem_origins_merged.mp ho
      exact nodup_positions (fun c => childKey? c = some k) blocks
  · refine (pairwise_origins blocks).imp_of_mem ?_
    intro o o' ho ho' hlt j hj hj'
    exact absurd (position_eq_of_shared ho ho' hj hj') (Nat.ne_of_lt hlt)

/-- **The origins of a merge account for its blocks.** -/
theorem accounts_origins {blocks : List Block} {outputs : List Snapshot}
    (h : merge blocks = .ok outputs) : Accounts blocks outputs (origins blocks) where
  gives := forall₂_mergeRest [] rfl h
  ordered := List.pairwise_map.mpr (pairwise_origins blocks)
  parents _ hk := existsUnique_origin hk
  once := (List.perm_ext_iff_of_nodup (nodup_flatMap_sources blocks) (nodup_positions _ _)).mpr
    fun _ => mem_flatMap_sources

/-! ## Sums -/

/-- The snapshots of the blocks that are no parents. -/
def queues (blocks : List Block) : List Snapshot :=
  (blocks.filter fun b => !isParent b).map (·.snapshot)

/-- What every output has from its sources, the outputs together have from all blocks. -/
theorem sum_outputs {blocks : List Block} {outputs : List Snapshot} {origins : List Origin}
    (h : Accounts blocks outputs origins) (f : Snapshot → Int)
    (hgives : ∀ o s, Gives blocks o s → f s = (o.sources.map (valueAt f blocks)).sum) :
    (outputs.map f).sum = ((queues blocks).map f).sum := by
  have hqueues : (queues blocks).map f
      = (positions (fun b => !isParent b) blocks).map (valueAt f blocks) := by
    rw [map_valueAt_positions, queues, List.map_map]
    rfl
  rw [map_eq_of_forall₂ hgives h.gives, hqueues, ← (h.once.map _).sum_eq, List.map_flatMap,
    List.flatMap_def, List.sum_flatten, List.map_map]
  rfl

theorem total_gives {blocks : List Block} (t : Total) (o : Origin) (s : Snapshot)
    (h : Gives blocks o s) :
    s.totals.get t = (o.sources.map (valueAt (·.totals.get t) blocks)).sum := by
  cases h with
  | kept block other => simp [Origin.sources, valueAt, block]
  | merged block parent first merge =>
    rw [Origin.sources, map_valueAt_childPositions, total_mergeQueues merge]

/-- No child of a parent has a longer table of tins than its first child. -/
def EvenTables (blocks : List Block) : Prop :=
  ∀ k first rest, hasParent blocks k = true → children blocks k = first :: rest →
    ∀ x ∈ rest, x.tins.length ≤ first.tins.length

theorem tinTotal_gives {blocks : List Block} (heven : EvenTables blocks) {c : TinCounter}
    (hc : c.IsSummed) (o : Origin) (s : Snapshot) (h : Gives blocks o s) :
    s.tinTotal c = (o.sources.map (valueAt (·.tinTotal c) blocks)).sum := by
  cases h with
  | kept block other => simp [Origin.sources, valueAt, block]
  | @merged i b k s block parent first merge =>
    rw [Origin.sources, map_valueAt_childPositions]
    cases hkids : children blocks k with
    | nil =>
      rw [hkids] at merge
      obtain rfl := Except.ok.inj merge
      rfl
    | cons kid kids =>
      rw [hkids] at merge
      exact tinTotal_mergeQueues merge
        (heven k kid kids (hasParent_iff.mpr ⟨i, b, block, parent⟩) hkids) hc

/-- **Merging neither loses nor duplicates a queue**: every output has its origin, and the counters of
all outputs are those of all queues. -/
theorem merge_accounts {blocks : List Block} {outputs : List Snapshot}
    (h : merge blocks = .ok outputs) :
    (∃ origins, Accounts blocks outputs origins) ∧
      (∀ t, (outputs.map (·.totals.get t)).sum = ((queues blocks).map (·.totals.get t)).sum) ∧
      (EvenTables blocks → ∀ c : TinCounter, c.IsSummed →
        (outputs.map (·.tinTotal c)).sum = ((queues blocks).map (·.tinTotal c)).sum) := by
  have haccounts := accounts_origins h
  refine ⟨⟨_, haccounts⟩, fun t => ?_, fun heven c hc => ?_⟩
  · exact sum_outputs haccounts _ (total_gives t)
  · exact sum_outputs haccounts _ (tinTotal_gives heven hc)

/-- A queue with that many bytes sent, all through one tin. -/
def queueOf (interface : Text) (bytes : Int) : Snapshot :=
  { interface, totals := { sentBytes := bytes }, tins := [{ counters := { bytes } }] }

/-- A child in front of its parent, another behind it, and one whose parent is missing. -/
def mixedBlocks : List Block :=
  [{ snapshot := queueOf "eth0" 10, attachment := .under "1" },
   { snapshot := { interface := "eth0", handle := "1" }, attachment := .multiQueue },
   { snapshot := queueOf "eth0" 20, attachment := .under "1" },
   { snapshot := queueOf "eth1" 5, attachment := .under "1" }]

theorem evenTables_mixedBlocks : EvenTables mixedBlocks := by
  intro k first rest hparent hchildren x hx
  have hone : ∀ b ∈ mixedBlocks, b.attachment ≠ .multiQueue → b.snapshot.tins.length = 1 := by decide
  have hlength : ∀ y ∈ children mixedBlocks k, y.tins.length = 1 := by
    intro y hy
    obtain ⟨b, hb, rfl⟩ := List.mem_map.mp hy
    obtain ⟨hb, hkey⟩ := List.mem_filter.mp hb
    refine hone b hb fun hmulti => ?_
    simp [childKey?, hmulti] at hkey
  rw [hchildren, List.forall_mem_cons] at hlength
  exact Nat.le_of_eq ((hlength.2 x hx).trans hlength.1.symm)

/-- Two outputs with the bytes of three queues. -/
theorem merge_accounts_mixedBlocks : ∃ outputs, merge mixedBlocks = .ok outputs ∧
    outputs.length = 2 ∧ (outputs.map (·.totals.get .sentBytes)).sum = 35 ∧
    EvenTables mixedBlocks ∧ (outputs.map (·.tinTotal .bytes)).sum = 35 := by
  have h : merge mixedBlocks = .ok
      [{ interface := "eth0", handle := "1", totals := { sentBytes := 30 }, backlogBytes := "0b"
         memoryUsed := "0b"
         tins := [{ counters := { bytes := 30 }, labels := { backlog := "0b" } }] },
       queueOf "eth1" 5] := by rfl
  obtain ⟨-, htotals, htins⟩ := merge_accounts h
  refine ⟨_, h, rfl, ?_, evenTables_mixedBlocks, ?_⟩
  · exact (htotals .sentBytes).trans (by decide)
  · exact (htins evenTables_mixedBlocks .bytes ⟨by decide, by decide⟩).trans (by decide)

end CakeMonitor.MultiQueue
