import CakeMonitor.Proofs.MultiQueue.Distinct

/-!
# What a merge looks at

What becomes of a block depends on the parents and the children of the key it names, and on nothing
else in the report. So lists of blocks without a key in common are merged apart, and a group of parent
and children can be taken out without a trace in the other outputs.

* `Names`: a block has a key, as parent or as child.
* `mergeRest_congr`: only blocks with the same key matter.
* `merge_append`: lists of blocks on different interfaces are merged apart.
* `mergeRest_without`, `merge_group`: a group of parent and children has one output, and without the
  group the other outputs are the same.
-/

namespace CakeMonitor.MultiQueue

/-- A block has that key, as a parent or as a child of one. -/
def Names (b : Block) (k : Key) : Prop := parentKey? b = some k ∨ childKey? b = some k

instance (b : Block) (k : Key) : Decidable (Names b k) :=
  inferInstanceAs (Decidable (parentKey? b = some k ∨ childKey? b = some k))

/-- A parent is no child. -/
theorem childKey?_of_parentKey? {b : Block} {k : Key} (h : parentKey? b = some k) :
    childKey? b = none := by
  rw [Option.eq_none_iff_forall_ne_some]
  intro k' hk'
  rw [parentKey?_of_childKey? hk'] at h
  cases h

/-- A block has one key at most. -/
theorem Names.eq {b : Block} {k k' : Key} (h : Names b k) (h' : Names b k') : k = k' := by
  rcases h with h | h <;> rcases h' with h' | h'
  · exact Option.some.inj (h.symm.trans h')
  · rw [childKey?_of_parentKey? h] at h'
    cases h'
  · rw [parentKey?_of_childKey? h] at h'
    cases h'
  · exact Option.some.inj (h.symm.trans h')

theorem interface_childKey? {b : Block} {k : Key} (h : childKey? b = some k) :
    k.1 = b.snapshot.interface := by
  unfold childKey? at h
  split at h
  · obtain rfl := Option.some.inj h
    rfl
  · cases h

theorem Names.interface_eq {b : Block} {k : Key} (h : Names b k) : k.1 = b.snapshot.interface :=
  h.elim interface_parentKey? interface_childKey?

/-! ## Parents and children of several lists -/

theorem hasParent_append (l m : List Block) (k : Key) :
    hasParent (l ++ m) k = (hasParent l k || hasParent m k) :=
  List.any_append

theorem children_append (l m : List Block) (k : Key) :
    children (l ++ m) k = children l k ++ children m k := by
  unfold children
  rw [List.filter_append, List.map_append]

/-- Blocks that do not have a key are no parents and no children of it. -/
theorem none_of_not_names {blocks : List Block} {k : Key} (h : ∀ b ∈ blocks, ¬ Names b k) :
    hasParent blocks k = false ∧ children blocks k = [] := by
  constructor
  · rw [← Bool.not_eq_true, hasParent, List.any_eq_true]
    rintro ⟨b, hb, hkey⟩
    exact h b hb (Or.inl (of_decide_eq_true hkey))
  · rw [children, List.map_eq_nil_iff, List.filter_eq_nil_iff]
    intro b hb hkey
    exact h b hb (Or.inr (of_decide_eq_true hkey))

/-- Parents and children of a key are found among the blocks of a kind when all that have the key are of
that kind. -/
theorem filter_of_names {p : Block → Bool} {k : Key} {blocks : List Block}
    (h : ∀ b ∈ blocks, Names b k → p b = true) :
    hasParent (blocks.filter p) k = hasParent blocks k ∧
      children (blocks.filter p) k = children blocks k := by
  induction blocks with
  | nil => exact ⟨rfl, rfl⟩
  | cons b blocks ih =>
    obtain ⟨hb, hrest⟩ := List.forall_mem_cons.mp h
    obtain ⟨hparent, hchildren⟩ := ih hrest
    by_cases hp : p b = true
    · have hfilter : (b :: blocks).filter p = [b] ++ blocks.filter p := List.filter_cons_of_pos hp
      have hcons : b :: blocks = [b] ++ blocks := rfl
      rw [hfilter, hcons, hasParent_append, hasParent_append, children_append, children_append,
        hparent, hchildren]
      exact ⟨rfl, rfl⟩
    · have hnot : ∀ c ∈ [b], ¬ Names c k := List.forall_mem_singleton.mpr fun hk => hp (hb hk)
      obtain ⟨hnone, hempty⟩ := none_of_not_names hnot
      have hcons : b :: blocks = [b] ++ blocks := rfl
      rw [List.filter_cons_of_neg hp, hcons, hasParent_append, children_append, hnone, hempty,
        hparent, hchildren]
      exact ⟨rfl, rfl⟩

/-! ## The outputs of several lists -/

/-- What stands at a block depends on the keys of the block only. -/
theorem outputsAt_congr {blocks blocks' earlier earlier' : List Block} {b : Block}
    (h : ∀ k, Names b k → hasParent blocks k = hasParent blocks' k ∧
      children blocks k = children blocks' k ∧ hasParent earlier k = hasParent earlier' k) :
    outputsAt blocks earlier b = outputsAt blocks' earlier' b := by
  unfold outputsAt
  cases hkey : parentKey? b with
  | some k =>
    obtain ⟨-, hchildren, hearlier⟩ := h k (Or.inl hkey)
    simp only [hchildren, hearlier]
  | none =>
    have habsorbed : isAbsorbed blocks b = isAbsorbed blocks' b := by
      unfold isAbsorbed
      cases hchild : childKey? b with
      | none => rfl
      | some k => exact (h k (Or.inr hchild)).1
    simp only [habsorbed]

/-- **A merge looks only at blocks with the same key.** -/
theorem mergeRest_congr {blocks blocks' : List Block} :
    ∀ {rest earlier earlier' : List Block},
      (∀ b ∈ rest, ∀ k, Names b k → hasParent blocks k = hasParent blocks' k ∧
        children blocks k = children blocks' k ∧ hasParent earlier k = hasParent earlier' k) →
      mergeRest blocks earlier rest = mergeRest blocks' earlier' rest
  | [], _, _, _ => rfl
  | b :: rest, earlier, earlier', h => by
    obtain ⟨hb, hrest⟩ := List.forall_mem_cons.mp h
    have ih : mergeRest blocks (earlier ++ [b]) rest = mergeRest blocks' (earlier' ++ [b]) rest := by
      refine mergeRest_congr fun c hc k hk => ?_
      obtain ⟨hparent, hchildren, hearlier⟩ := hrest c hc k hk
      exact ⟨hparent, hchildren, by rw [hasParent_append, hasParent_append, hearlier]⟩
    rw [mergeRest_cons, mergeRest_cons, outputsAt_congr hb, ih]

theorem mergeRest_append (blocks : List Block) : ∀ l earlier m : List Block,
    mergeRest blocks earlier (l ++ m) = (do
      let outputs ← mergeRest blocks earlier l
      let others ← mergeRest blocks (earlier ++ l) m
      return outputs ++ others)
  | [], earlier, m => by
    rw [List.nil_append, List.append_nil]
    show _ = mergeRest blocks earlier m >>= fun others => pure others
    rw [bind_pure]
  | b :: l, earlier, m => by
    rw [List.cons_append, mergeRest_cons, mergeRest_cons, mergeRest_append blocks l]
    simp only [List.append_assoc, List.singleton_append, bind_assoc, pure_bind]
    refine bind_congr fun here => bind_congr fun outputs => ?_
    show _ = mergeRest blocks (earlier ++ b :: l) m >>= fun others => pure (here ++ outputs ++ others)
    simp only [List.append_assoc]
    rfl

/-- **Lists of blocks on different interfaces are merged apart.** -/
theorem merge_append {l m : List Block}
    (h : ∀ b ∈ l, ∀ c ∈ m, b.snapshot.interface ≠ c.snapshot.interface) :
    merge (l ++ m) = (do return (← merge l) ++ (← merge m)) := by
  have hleft : mergeRest (l ++ m) [] l = mergeRest l [] l := by
    refine mergeRest_congr fun b hb k hk => ?_
    have hnot : ∀ c ∈ m, ¬ Names c k := fun c hc hk' =>
      h b hb c hc (hk.interface_eq.symm.trans hk'.interface_eq)
    obtain ⟨hparent, hchildren⟩ := none_of_not_names hnot
    rw [hasParent_append, children_append, hparent, hchildren, Bool.or_false, List.append_nil]
    exact ⟨rfl, rfl, rfl⟩
  have hright : mergeRest (l ++ m) l m = mergeRest m [] m := by
    refine mergeRest_congr fun c hc k hk => ?_
    have hnot : ∀ b ∈ l, ¬ Names b k := fun b hb hk' =>
      h b hb c hc (hk'.interface_eq.symm.trans hk.interface_eq)
    obtain ⟨hparent, hchildren⟩ := none_of_not_names hnot
    rw [hasParent_append, children_append, hparent, hchildren, Bool.false_or, List.nil_append]
    exact ⟨rfl, rfl, rfl⟩
  rw [merge, mergeRest_append, List.nil_append, hleft, hright]
  rfl

/-! ## Groups -/

/-- The blocks that do not have a key. -/
def without (k : Key) (blocks : List Block) : List Block := blocks.filter fun b => ¬ Names b k

theorem without_append (k : Key) (l m : List Block) :
    without k (l ++ m) = without k l ++ without k m :=
  List.filter_append l m

theorem without_singleton {k : Key} {b : Block} (h : Names b k) : without k [b] = [] :=
  List.filter_eq_nil_iff.mpr <| List.forall_mem_singleton.mpr <| by simpa using h

/-- Blocks that do not have a key do not look at those that have it. -/
theorem without_of_names {b : Block} {k k' : Key} (hb : ¬ Names b k) (h : Names b k')
    (blocks : List Block) : hasParent (without k blocks) k' = hasParent blocks k' ∧
      children (without k blocks) k' = children blocks k' := by
  refine filter_of_names fun c _ hc => decide_eq_true fun hck => hb ?_
  rwa [hck.eq hc]

/-- **Children of a parent leave no trace** where they stand. -/
theorem mergeRest_without {blocks : List Block} {k : Key} (hparent : hasParent blocks k = true) :
    ∀ {rest earlier : List Block}, (∀ b ∈ rest, parentKey? b ≠ some k) →
      mergeRest blocks earlier rest
        = mergeRest (without k blocks) (without k earlier) (without k rest)
  | [], _, _ => rfl
  | b :: rest, earlier, h => by
    obtain ⟨hb, hrest⟩ := List.forall_mem_cons.mp h
    have hcons : without k (b :: rest) = without k [b] ++ without k rest := without_append k [b] rest
    have ih : mergeRest blocks (earlier ++ [b]) rest
        = mergeRest (without k blocks) (without k earlier ++ without k [b]) (without k rest) := by
      rw [← without_append]
      exact mergeRest_without hparent hrest
    rw [mergeRest_cons, ih, hcons]
    by_cases hnames : Names b k
    · have hchild : childKey? b = some k := hnames.resolve_left hb
      have hout : outputsAt blocks earlier b = .ok [] := by
        rw [outputsAt, parentKey?_of_childKey? hchild, isAbsorbed, hchild, Option.any_some, hparent]
        rfl
      rw [hout, without_singleton hnames, List.append_nil, List.nil_append]
      exact bind_pure (mergeRest (without k blocks) (without k earlier) (without k rest))
    · have hsingle : without k [b] = [b] :=
        List.filter_eq_self.mpr <| List.forall_mem_singleton.mpr <| decide_eq_true hnames
      have hout : outputsAt blocks earlier b
          = outputsAt (without k blocks) (without k earlier) b := by
        refine outputsAt_congr fun k' hk' => ?_
        obtain ⟨hparents, hchildren⟩ := without_of_names hnames hk' blocks
        exact ⟨hparents.symm, hchildren.symm, (without_of_names hnames hk' earlier).1.symm⟩
      rw [hout, hsingle, List.singleton_append, mergeRest_cons]

/-- **A group has one output**, which stands at the parent; what stands in front of it and behind it are
the outputs without the group. -/
theorem merge_group {l m : List Block} {p : Block} {k : Key} (hp : parentKey? p = some k)
    (hothers : ∀ b ∈ l ++ m, parentKey? b ≠ some k) {outputs : List Snapshot}
    (h : merge (l ++ p :: m) = .ok outputs) : ∃ front merged back,
      outputs = front ++ merged :: back ∧
      mergeQueues p.snapshot (children (l ++ m) k) = .ok merged ∧
      merge (without k (l ++ m)) = .ok (front ++ back) := by
  obtain ⟨hl, hm⟩ := List.forall_mem_append.mp hothers
  have hparent : hasParent (l ++ p :: m) k = true :=
    List.any_eq_true.mpr ⟨p, by simp, decide_eq_true hp⟩
  have hfirst : hasParent l k = false := by
    rw [← Bool.not_eq_true, hasParent, List.any_eq_true]
    rintro ⟨b, hb, hkey⟩
    exact hl b hb (of_decide_eq_true hkey)
  have hgroup : without k (l ++ p :: m) = without k (l ++ m) := by
    have hcons : p :: m = [p] ++ m := rfl
    rw [hcons, without_append, without_append, without_singleton (Or.inl hp), List.nil_append,
      without_append]
  have hchildren : children (l ++ p :: m) k = children (l ++ m) k := by
    have hnone : children [p] k = [] := by
      simp [children, childKey?_of_parentKey? hp]
    have hcons : p :: m = [p] ++ m := rfl
    rw [hcons, children_append, children_append, hnone, List.nil_append, children_append]
  have hearlier : without k (l ++ [p]) = without k l := by
    rw [without_append, without_singleton (Or.inl hp), List.append_nil]
  rw [merge, mergeRest_append, List.nil_append, mergeRest_cons, mergeRest_without hparent hl,
    mergeRest_without hparent hm, hearlier, hgroup] at h
  obtain ⟨front, hfront, h⟩ := bind_eq_ok.mp h
  obtain ⟨others, hothers, h⟩ := bind_eq_ok.mp h
  obtain ⟨here, hhere, hothers⟩ := bind_eq_ok.mp hothers
  obtain ⟨back, hback, hothers⟩ := bind_eq_ok.mp hothers
  obtain rfl := Except.ok.inj hothers
  obtain rfl := Except.ok.inj h
  rw [outputsAt, hp] at hhere
  simp only [hfirst, hchildren] at hhere
  obtain ⟨merged, hmerged, rfl⟩ := map_eq_ok.mp hhere
  refine ⟨front, merged, back, by simp, hmerged, ?_⟩
  have hfront' : mergeRest (without k (l ++ m)) [] (without k l) = .ok front := hfront
  rw [merge, without_append, mergeRest_append, ← without_append, List.nil_append, hfront', hback]
  rfl

end CakeMonitor.MultiQueue
