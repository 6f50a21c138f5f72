import CakeMonitor.Proofs.MultiQueue.Accounting

/-!
# One snapshot for each interface

A merge brings the queues under one parent together. It knows them by interface and handle, so two of
its outputs may still be of one interface: queues without parent, or parents with different handles.

* `Separate`: blocks in which no interface has two such queues.
* `interfaces_merge`: the interfaces of the outputs, from those of the blocks they stand at.
* `nodup_interfaces_iff`: the interfaces of the outputs are distinct exactly for separate blocks.
-/

namespace CakeMonitor.MultiQueue

variable {blocks : List Block} {outputs : List Snapshot}

/-- Whether a queue stays as it is: it is no parent, and no parent absorbs it. -/
def stays (blocks : List Block) (b : Block) : Bool := !isParent b && !isAbsorbed blocks b

/-- No interface has two queues that are kept apart. -/
structure Separate (blocks : List Block) : Prop where
  /-- queues that stay as they are have an interface of their own -/
  queues : ((blocks.filter (stays blocks)).map (·.snapshot.interface)).Nodup
  /-- parents of one interface have one handle -/
  parents : ∀ k k', hasParent blocks k = true → hasParent blocks k' = true → k.1 = k'.1 → k = k'
  /-- no queue stays beside a parent of its interface -/
  apart : ∀ b ∈ blocks, stays blocks b = true → ∀ k, hasParent blocks k = true →
    b.snapshot.interface ≠ k.1

theorem stays_iff {b : Block} :
    stays blocks b = true ↔ parentKey? b = none ∧ isAbsorbed blocks b = false := by
  unfold stays isParent
  cases parentKey? b <;> simp

theorem interface_parentKey? {b : Block} {k : Key} (h : parentKey? b = some k) :
    k.1 = b.snapshot.interface := by
  unfold parentKey? at h
  split at h
  · obtain rfl := Option.some.inj h
    rfl
  · cases h

/-! ## The interfaces of the outputs -/

theorem interface_mergeQueues {parent s : Snapshot} {children : List Snapshot}
    (h : mergeQueues parent children = .ok s) : s.interface = parent.interface := by
  cases children with
  | nil =>
    obtain rfl := Except.ok.inj h
    rfl
  | cons first rest =>
    obtain ⟨-, -, -, -, -, -, rfl⟩ := mergeQueues_cons h
    rfl

/-- The interface of the block in a position. -/
def interfaceAt (blocks : List Block) (i : Nat) : Text :=
  (blocks[i]?.map (·.snapshot.interface)).getD []

theorem interfaceAt_eq {i : Nat} {b : Block} (h : blocks[i]? = some b) :
    interfaceAt blocks i = b.snapshot.interface := by
  rw [interfaceAt, h]
  rfl

/-- An output has the interface of the block it stands at. -/
theorem interface_gives (o : Origin) (s : Snapshot) (h : Gives blocks o s) :
    s.interface = interfaceAt blocks o.position := by
  cases h with
  | kept block other => exact (interfaceAt_eq block).symm
  | merged block parent first merge =>
    rw [interface_mergeQueues merge]
    exact (interfaceAt_eq block).symm

theorem interfaces_merge (h : merge blocks = .ok outputs) :
    outputs.map (·.interface) = (origins blocks).map fun o => interfaceAt blocks o.position :=
  map_eq_of_forall₂ interface_gives (accounts_origins h).gives

theorem nodup_origins (blocks : List Block) : (origins blocks).Nodup := by
  refine (pairwise_origins blocks).imp ?_
  rintro o _ hlt rfl
  exact Nat.lt_irrefl _ hlt

/-! ## When they are distinct -/

theorem nodup_map_filter_iff {α β : Type} {p : α → Bool} {f : α → β} {l : List α} :
    ((l.filter p).map f).Nodup ↔ ∀ (i j : Nat) (a b : α), l[i]? = some a → l[j]? = some b →
      p a = true → p b = true → f a = f b → i = j := by
  rw [List.Nodup, List.pairwise_map, List.pairwise_filter, List.pairwise_iff_getElem]
  constructor
  · intro h i j a b hi hj ha hb hab
    obtain ⟨hlti, rfl⟩ := List.getElem?_eq_some_iff.mp hi
    obtain ⟨hltj, rfl⟩ := List.getElem?_eq_some_iff.mp hj
    rcases Nat.lt_trichotomy i j with hlt | heq | hlt
    · exact absurd hab (h i j hlti hltj hlt ha hb)
    · exact heq
    · exact absurd hab.symm (h j i hltj hlti hlt hb ha)
  · intro h i j hi hj hlt ha hb hab
    have := h i j _ _ (List.getElem?_eq_getElem hi) (List.getElem?_eq_getElem hj) ha hb hab
    omega

theorem separate_of_injective (h : ∀ o ∈ origins blocks, ∀ o' ∈ origins blocks,
    interfaceAt blocks o.position = interfaceAt blocks o'.position → o = o') : Separate blocks where
  queues := by
    rw [nodup_map_filter_iff]
    intro i j b c hi hj hb hc hsame
    obtain ⟨hb, hb'⟩ := stays_iff.mp hb
    obtain ⟨hc, hc'⟩ := stays_iff.mp hc
    refine Origin.kept.inj (h (.kept i) (mem_origins_kept.mpr ⟨b, hi, hb, hb'⟩) (.kept j)
      (mem_origins_kept.mpr ⟨c, hj, hc, hc'⟩) ?_)
    exact (interfaceAt_eq hi).trans (hsame.trans (interfaceAt_eq hj).symm)
  parents := by
    intro k k' hk hk' hsame
    obtain ⟨i, b, hi, hb, hfirst⟩ := exists_first hk
    obtain ⟨j, c, hj, hc, hfirst'⟩ := exists_first hk'
    have hposition : interfaceAt blocks i = interfaceAt blocks j := by
      rw [interfaceAt_eq hi, interfaceAt_eq hj, ← interface_parentKey? hb, ← interface_parentKey? hc,
        hsame]
    obtain ⟨rfl, -⟩ := Origin.merged.inj
      (h _ (mem_origins_merged.mpr ⟨b, k, hi, hb, hfirst, rfl⟩)
        _ (mem_origins_merged.mpr ⟨c, k', hj, hc, hfirst', rfl⟩) hposition)
    obtain rfl := Option.some.inj (hi.symm.trans hj)
    exact Option.some.inj (hb.symm.trans hc)
  apart := by
    intro b hmem hb k hk hsame
    obtain ⟨i, hi⟩ := List.mem_iff_getElem?.mp hmem
    obtain ⟨hb, hb'⟩ := stays_iff.mp hb
    obtain ⟨j, c, hj, hc, hfirst⟩ := exists_first hk
    have hposition : interfaceAt blocks i = interfaceAt blocks j := by
      rw [interfaceAt_eq hi, interfaceAt_eq hj, hsame, interface_parentKey? hc]
    cases h _ (mem_origins_kept.mpr ⟨b, hi, hb, hb'⟩)
      _ (mem_origins_merged.mpr ⟨c, k, hj, hc, hfirst, rfl⟩) hposition

theorem Separate.injective (h : Separate blocks) {o o' : Origin} (ho : o ∈ origins blocks)
    (ho' : o' ∈ origins blocks)
    (hsame : interfaceAt blocks o.position = interfaceAt blocks o'.position) : o = o' := by
  have hbeside {i j : Nat} {js : List Nat} (hi : .kept i ∈ origins blocks)
      (hj : .merged j js ∈ origins blocks) : interfaceAt blocks i ≠ interfaceAt blocks j := by
    obtain ⟨b, hi, hb⟩ := mem_origins_kept.mp hi
    obtain ⟨c, k, hj, hc, -, -⟩ := mem_origins_merged.mp hj
    rw [interfaceAt_eq hi, interfaceAt_eq hj, ← interface_parentKey? hc]
    exact h.apart b (List.mem_iff_getElem?.mpr ⟨i, hi⟩) (stays_iff.mpr hb) k
      (hasParent_iff.mpr ⟨j, c, hj, hc⟩)
  cases o with
  | kept i =>
    cases o' with
    | kept j =>
      obtain ⟨b, hi, hb⟩ := mem_origins_kept.mp ho
      obtain ⟨c, hj, hc⟩ := mem_origins_kept.mp ho'
      have hinterface : b.snapshot.interface = c.snapshot.interface :=
        (interfaceAt_eq hi).symm.trans (hsame.trans (interfaceAt_eq hj))
      exact congrArg Origin.kept (nodup_map_filter_iff.mp h.queues i j b c hi hj
        (stays_iff.mpr hb) (stays_iff.mpr hc) hinterface)
    | merged j js => exact absurd hsame (hbeside ho ho')
  | merged i js =>
    cases o' with
    | kept j => exact absurd hsame.symm (hbeside ho' ho)
    | merged j js' =>
      obtain ⟨b, k, hi, hb, hfirst, rfl⟩ := mem_origins_merged.mp ho
      obtain ⟨c, k', hj, hc, hfirst', rfl⟩ := mem_origins_merged.mp ho'
      have hinterface : k.1 = k'.1 := by
        rw [interface_parentKey? hb, interface_parentKey? hc, ← interfaceAt_eq hi,
          ← interfaceAt_eq hj]
        exact hsame
      obtain rfl := h.parents k k' (hasParent_iff.mpr ⟨i, b, hi, hb⟩)
        (hasParent_iff.mpr ⟨j, c, hj, hc⟩) hinterface
      obtain rfl := first_unique hi hb hfirst hj hc hfirst'
      rfl

/-- **The outputs of a merge have distinct interfaces** exactly when its blocks are separate. -/
theorem nodup_interfaces_iff (h : merge blocks = .ok outputs) :
    (outputs.map (·.interface)).Nodup ↔ Separate blocks := by
  rw [interfaces_merge h, List.nodup_map_iff_inj_on (nodup_origins blocks)]
  exact ⟨separate_of_injective, fun hseparate _ ho _ ho' => hseparate.injective ho ho'⟩

end CakeMonitor.MultiQueue
