import CakeMonitor.Snapshot

/-!
# Parts of a snapshot that may be set

* `Totals.get_set?`, `TinCounters.get_set?`: a counter that may be replaced; `Totals.get_setAll_of_ne` is one
  that is not, and `Totals.get_setAll_of_mem` one that is.
* `Options.change`, `Options.turn`: a text option and a switch that may be set; the lemmas below them say what
  that makes of each option.
-/

namespace CakeMonitor

namespace Totals

theorem eq_of_get {t u : Totals} (h : ∀ c, t.get c = u.get c) : t = u := by
  rw [← ofFn_get t, ← ofFn_get u, funext h]

/-- A counter that may be replaced. -/
theorem get_set? (t : Totals) (c d : Total) (n : Option Nat) :
    ((n.map fun n : Nat => t.set c n).getD t).get d
      = if d = c then (n.map Int.ofNat).getD (t.get d) else t.get d := by
  cases n with
  | none => simp
  | some n => exact t.get_set c d n

/-- Changes of other counters leave a counter alone. -/
theorem get_setAll_of_ne {c : Total} {changes : List (Total × Int)} (h : c ∉ changes.map (·.1))
    (t : Totals) : (t.setAll changes).get c = t.get c := by
  induction changes generalizing t with
  | nil => rfl
  | cons d changes ih =>
    rw [List.map_cons, List.mem_cons, not_or] at h
    show ((t.set d.1 d.2).setAll changes).get c = t.get c
    rw [ih h.2, get_set, if_neg h.1]

/-- A counter that is changed does not depend on what it was. -/
theorem get_setAll_of_mem {c : Total} {changes : List (Total × Int)} (h : c ∈ changes.map (·.1))
    (t u : Totals) : (t.setAll changes).get c = (u.setAll changes).get c := by
  induction changes generalizing t u with
  | nil => cases h
  | cons d changes ih =>
    show ((t.set d.1 d.2).setAll changes).get c = ((u.set d.1 d.2).setAll changes).get c
    by_cases hc : c ∈ changes.map (·.1)
    · exact ih hc _ _
    · obtain rfl : c = d.1 := (List.mem_cons.mp h).resolve_right hc
      rw [get_setAll_of_ne hc, get_setAll_of_ne hc, get_set, get_set, if_pos rfl, if_pos rfl]

end Totals

namespace TinCounters

theorem eq_of_get {t u : TinCounters} (h : ∀ c, t.get c = u.get c) : t = u := by
  rw [← ofFn_get t, ← ofFn_get u, funext h]

/-- A counter that may be replaced. -/
theorem get_set? (t : TinCounters) (c d : TinCounter) (n : Option Nat) :
    ((n.map fun n : Nat => t.set c n).getD t).get d
      = if d = c then (n.map Int.ofNat).getD (t.get d) else t.get d := by
  cases n with
  | none => simp
  | some n => exact t.get_set c d n

end TinCounters

namespace Options

/-- Options are what their texts and switches are. -/
theorem eq_of_text_isOn {o p : Options} (ht : ∀ k, o.text k = p.text k)
    (hs : ∀ k, o.isOn k = p.isOn k) : o = p := by
  rw [← ofFn_text_isOn o, ← ofFn_text_isOn p, funext ht, funext hs]

/-- An option that may be set. -/
def change (k : TextOption) (v : Option Text) : List OptionChange := (v.map (.text k)).toList

@[simp] theorem setAll_nil (o : Options) : o.setAll [] = o := rfl

theorem setAll_append (o : Options) (cs ds : List OptionChange) :
    o.setAll (cs ++ ds) = (o.setAll cs).setAll ds := List.foldl_append

theorem text_setAll_change (o : Options) (k : TextOption) (v : Option Text) (j : TextOption) :
    (o.setAll (change k v)).text j = if j = k then v.getD (o.text j) else o.text j := by
  cases v with
  | none => simp [change, setAll]
  | some v => simp [change, setAll, text_set]

theorem isOn_setAll_change (o : Options) (k : TextOption) (v : Option Text) (j : Switch) :
    (o.setAll (change k v)).isOn j = o.isOn j := by
  cases v with
  | none => rfl
  | some v => simp [change, setAll, isOn_set]

theorem text_setAll_switch (o : Options) (s : Switch) (b : Bool) (j : TextOption) :
    (o.setAll [.switch s b]).text j = o.text j := by simp [setAll, text_set]

theorem isOn_setAll_switch (o : Options) (s : Switch) (b : Bool) (j : Switch) :
    (o.setAll [.switch s b]).isOn j = if j = s then b else o.isOn j := by simp [setAll, isOn_set]

/-- A switch that may be set. -/
def turn (k : Switch) (b : Option Bool) : List OptionChange := (b.map (.switch k)).toList

theorem text_setAll_turn (o : Options) (k : Switch) (b : Option Bool) (j : TextOption) :
    (o.setAll (turn k b)).text j = o.text j := by
  cases b with
  | none => rfl
  | some b => exact text_setAll_switch o k b j

theorem isOn_setAll_turn (o : Options) (k : Switch) (b : Option Bool) (j : Switch) :
    (o.setAll (turn k b)).isOn j = if j = k then b.getD (o.isOn j) else o.isOn j := by
  cases b with
  | none => simp [turn, setAll]
  | some b => exact isOn_setAll_switch o k b j

end Options

end CakeMonitor
