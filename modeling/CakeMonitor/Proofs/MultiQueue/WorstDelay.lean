import CakeMonitor.Proofs.MultiQueue.Reordered

/-!
# The worst of some delays

The worst delay is chosen in one pass that carries the worst delay so far and how long it lasts. The empty
text stands for no delay yet, and it may also be one of the delays. Where no delay is negative or NaN the pass
gives the first of those that last longest; where none lasts any time it gives the first that was printed.

* `MultiQueue.IsWorst`: what makes a delay the worst of some.
* `worstFrom_first`, `worstFrom_calm`: the two cases, by induction on the delays that follow.
* `worstDelay_selects`: the pass gives the worst delay, on every list and in every column of tins.
-/

namespace CakeMonitor

theorem Delay.nonNegative_iff {t : Text} : NonNegative t ↔
    microseconds t ≠ .nan ∧ ¬ (microseconds t).lt .zero = true :=
  Binary64.le_iff_not_lt.trans ⟨fun h => h.2, fun h => ⟨by decide, h⟩⟩

/-- Such a delay lasts some time or none. -/
theorem Delay.NonNegative.lasts_or_equals {t : Text} (h : NonNegative t) :
    Binary64.lt .zero (microseconds t) = true ∨ Binary64.Equals (microseconds t) .zero := by
  by_cases hlt : Binary64.lt .zero (microseconds t) = true
  · exact .inl hlt
  · exact .inr ⟨Binary64.le_of_not_lt (by decide) (Binary64.le_self_right h) hlt, h⟩

namespace MultiQueue

open Delay (NonNegative microseconds)
open Binary64 (Equals)

/-- The delay is the worst of some delays, and the first to be chosen of several such. -/
structure IsWorst (ds : List Text) (worst : Text) : Prop where
  mem : worst ∈ ds
  greatest : ∀ d ∈ ds, (microseconds d).le (microseconds worst) = true
  /-- if it lasts some time, all in front of it last less -/
  first : Binary64.lt .zero (microseconds worst) = true → ∃ before after,
    ds = before ++ worst :: after ∧ ∀ d ∈ before, (microseconds d).lt (microseconds worst) = true
  /-- if it lasts no time, it is the first that is not empty, or empty like all of them -/
  calm : Equals (microseconds worst) .zero → worst = (ds.find? (· ≠ [])).getD []

/-- What stands in front of the worst delay does not last as long, if that lasts at all. -/
theorem worstFrom_first : ∀ (ds : List Text) (best : Text), NonNegative best →
    (∀ d ∈ ds, NonNegative d) →
    Binary64.lt .zero (microseconds (worstFrom (microseconds best) best ds)) = true →
    ∃ before after, best :: ds = before ++ worstFrom (microseconds best) best ds :: after ∧
      ∀ d ∈ before,
        (microseconds d).lt (microseconds (worstFrom (microseconds best) best ds)) = true
  | [], _, _, _, _ => ⟨[], [], rfl, List.forall_mem_nil _⟩
  | e :: es, best, hbest, hes, hpos => by
    obtain ⟨he, hes⟩ := List.forall_mem_cons.mp hes
    rw [worstFrom_cons] at hpos ⊢
    by_cases hworse : (microseconds best).lt (microseconds e) = true ∨ best = []
    · rw [if_pos hworse] at hpos ⊢
      obtain ⟨before, after, hsplit, hbefore⟩ := worstFrom_first es e he hes hpos
      refine ⟨best :: before, after, by rw [hsplit]; rfl, List.forall_mem_cons.mpr ⟨?_, hbefore⟩⟩
      -- the empty text lasts no time, so it lasts less than a delay that lasts some
      rcases hworse with hlt | rfl
      · exact Binary64.lt_of_lt_of_le hlt (le_worstFrom es e he hes e List.mem_cons_self)
      · exact hpos
    · rw [if_neg hworse] at hpos ⊢
      obtain ⟨before, after, hsplit, hbefore⟩ := worstFrom_first es best hbest hes hpos
      cases before with
      | nil =>
        obtain ⟨hfirst, -⟩ := List.cons.inj hsplit
        exact ⟨[], e :: es, by rw [List.nil_append, ← hfirst], List.forall_mem_nil _⟩
      | cons b before =>
        -- the delay that did not replace the best so far goes in behind it
        obtain ⟨rfl, hrest⟩ := List.cons.inj hsplit
        obtain ⟨hlt, hbefore⟩ := List.forall_mem_cons.mp hbefore
        have hle : (microseconds e).le (microseconds best) = true :=
          Binary64.le_of_not_lt (Binary64.le_self_right hbest) (Binary64.le_self_right he)
            fun hlt => hworse (Or.inl hlt)
        refine ⟨best :: e :: before, after, congrArg (best :: e :: ·) hrest, ?_⟩
        exact List.forall_mem_cons.mpr
          ⟨hlt, List.forall_mem_cons.mpr ⟨Binary64.lt_of_le_of_lt hle hlt, hbefore⟩⟩

/-- Where no delay lasts any time the first one that is not empty is chosen. -/
theorem worstFrom_calm : ∀ (ds : List Text) (best : Text), NonNegative best →
    (∀ d ∈ ds, NonNegative d ∧ ¬ Binary64.lt .zero (microseconds d) = true) →
    worstFrom (microseconds best) best ds = ((best :: ds).find? (· ≠ [])).getD []
  | [], best, _, _ => by
    by_cases hempty : best = [] <;> simp [worstFrom, hempty]
  | e :: es, best, hbest, hes => by
    obtain ⟨⟨he, hcalm⟩, hes⟩ := List.forall_mem_cons.mp hes
    have hnot : ¬ (microseconds best).lt (microseconds e) = true := fun hlt =>
      hcalm (Binary64.lt_of_le_of_lt hbest hlt)
    rw [worstFrom_cons]
    by_cases hempty : best = []
    · subst hempty
      rw [if_pos (Or.inr rfl), worstFrom_calm es e he hes]
      rfl
    · rw [if_neg (not_or.mpr ⟨hnot, hempty⟩), worstFrom_calm es best hbest hes]
      simp [hempty]

theorem isWorst_worstFrom {best : Text} {ds : List Text} (hbest : NonNegative best)
    (hds : ∀ d ∈ ds, NonNegative d) :
    IsWorst (best :: ds) (worstFrom (microseconds best) best ds) where
  mem := by
    rcases worstFrom_mem ds (microseconds best) best with h | h
    · rw [h]
      exact List.mem_cons_self
    · exact List.mem_cons_of_mem best h
  greatest := le_worstFrom ds best hbest hds
  first := worstFrom_first ds best hbest hds
  calm := fun hzero => worstFrom_calm ds best hbest fun d hd => by
    have hle := le_worstFrom ds best hbest hds d (List.mem_cons_of_mem best hd)
    exact ⟨hds d hd, (Binary64.le_iff_not_lt.mp (Binary64.le_trans hle hzero.1)).2.2⟩

/-- **The pass gives the worst delay.** -/
theorem isWorst_worstDelay {ds : List Text} (hne : ds ≠ []) (hds : ∀ d ∈ ds, NonNegative d) :
    IsWorst ds (worstDelay ds) := by
  obtain ⟨d, ds, rfl⟩ := List.exists_cons_of_ne_nil hne
  obtain ⟨hd, hds⟩ := List.forall_mem_cons.mp hds
  have hfirst : worstDelay (d :: ds) = worstFrom (microseconds d) d ds := by
    rw [worstDelay, worstFrom_cons, if_pos (Or.inr rfl)]
  rw [hfirst]
  exact isWorst_worstFrom hd hds

/-- The worst delay is empty only where all are. -/
theorem IsWorst.ne_nil {ds : List Text} {worst d : Text} (h : IsWorst ds worst) (hd : d ∈ ds)
    (hne : d ≠ []) : worst ≠ [] := by
  rintro rfl
  have hprinted : (ds.find? (· ≠ [])).isSome := List.find?_isSome.mpr ⟨d, hd, by simpa using hne⟩
  obtain ⟨e, he⟩ := Option.isSome_iff_exists.mp hprinted
  have hcalm := h.calm (show Equals .zero .zero by decide)
  rw [he] at hcalm
  exact absurd hcalm.symm (by simpa using List.find?_some he)

/-- The delays of a merged tin are the worst ones of its column, which has a tin at least. -/
theorem delay_mergeTins {tables : List (List Tin)} {tins : List Tin} (h : mergeTins tables = .ok tins)
    {i : Nat} {tin : Tin} (ht : tins[i]? = some tin) {l : TinLabel} (hl : l.isDelay = true) :
    column tables i ≠ [] ∧ tin.label l = worstDelay ((column tables i).map (·.label l)) := by
  obtain ⟨base, hbase, hcolumn⟩ := getElem?_of_mapM_zipIdx h ht
  constructor
  · cases tables with
    | nil => cases hbase
    | cons table tables =>
      rw [column_cons, show table[i]? = some base from hbase]
      exact List.cons_ne_nil _ _
  · have hmerge : mergeColumn base (column tables i) = .ok tin := hcolumn
    rw [mergeColumn_eq] at hmerge
    obtain ⟨backlog, -, rfl⟩ := map_eq_ok.mp hmerge
    exact label_mergedTin base (column tables i) backlog hl

/-- **The worst delay.** Of no delays none is chosen. Of delays none of which is NaN or negative one is
chosen that lasts longest: the first such, or, if none lasts any time, the first one printed. So each
delay of a merged tin is the worst one in its column, and it is not empty when some queue printed one. -/
theorem worstDelay_selects :
    worstDelay [] = [] ∧
    (∀ ds, ds ≠ [] → (∀ d ∈ ds, microseconds d ≠ .nan ∧ ¬ (microseconds d).lt .zero = true) →
      IsWorst ds (worstDelay ds) ∧
        (Binary64.lt .zero (microseconds (worstDelay ds)) = true ∨
          Equals (microseconds (worstDelay ds)) .zero)) ∧
    ∀ tables tins i tin (l : TinLabel), mergeTins tables = .ok tins → tins[i]? = some tin →
      l.isDelay = true →
      (∀ d ∈ (column tables i).map (·.label l),
        microseconds d ≠ .nan ∧ ¬ (microseconds d).lt .zero = true) →
      IsWorst ((column tables i).map (·.label l)) (tin.label l) ∧
        ((∃ d ∈ (column tables i).map (·.label l), d ≠ []) → tin.label l ≠ []) := by
  refine ⟨rfl, fun ds hne hds => ?_, fun tables tins i tin l h ht hl hds => ?_⟩
  · have hnonneg : ∀ d ∈ ds, NonNegative d := fun d hd => Delay.nonNegative_iff.mpr (hds d hd)
    have hworst := isWorst_worstDelay hne hnonneg
    exact ⟨hworst, (hnonneg _ hworst.mem).lasts_or_equals⟩
  · obtain ⟨hne, hlabel⟩ := delay_mergeTins h ht hl
    have hworst : IsWorst ((column tables i).map (·.label l)) (tin.label l) :=
      hlabel ▸ isWorst_worstDelay (List.map_eq_nil_iff.not.mpr hne) fun d hd =>
        Delay.nonNegative_iff.mpr (hds d hd)
    exact ⟨hworst, fun ⟨d, hd, hprinted⟩ => hworst.ne_nil hd hprinted⟩

/-- Delays in different units, one that is none, and none at all. -/
def mixedDelays : List Text := ["", "900us", "1ms", "soon", "1000us", "0.5ms"]

/-- The first of two worst delays, the first printed of those that last no time, and a column of tins. -/
theorem worstDelay_selects_mixedDelays :
    IsWorst mixedDelays "1ms" ∧ IsWorst ["", "0us", "0"] "0us" ∧
      ∃ tins tin, mergeTins ([calmQueue, shortQueue, longQueue].map (·.tins)) = .ok tins ∧
        tins[1]? = some tin ∧ IsWorst ["", "3us"] (tin.label .pkDelay) ∧ tin.label .pkDelay ≠ [] := by
  obtain ⟨-, hlist, hcolumn⟩ := worstDelay_selects
  have hmixed : worstDelay mixedDelays = "1ms" := by decide +kernel
  have hnone : worstDelay ["", "0us", "0"] = "0us" := by decide +kernel
  have htins : mergeTins ([calmQueue, shortQueue, longQueue].map (·.tins))
      = .ok (delayedQueue ["1ms", "3us"]).tins := by decide +kernel
  obtain ⟨hworst, hprinted⟩ := hcolumn _ _ 1 _ .pkDelay htins rfl rfl (by decide +kernel)
  exact ⟨hmixed ▸ (hlist mixedDelays (by decide) (by decide +kernel)).1,
    hnone ▸ (hlist ["", "0us", "0"] (by decide) (by decide +kernel)).1, _, _, htins, rfl, hworst,
    hprinted ⟨"3us", by decide +kernel, by decide⟩⟩

end MultiQueue

end CakeMonitor
