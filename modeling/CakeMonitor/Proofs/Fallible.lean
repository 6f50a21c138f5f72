import Mathlib.Data.List.Forall2

/-!
# Fallible computations

Computations with errors taken apart, one step or one list at a time.

* `bind_eq_ok`: what a successful sequence of two steps says of each.
* `mapM_eq_ok`, `forall₂_of_mapM`: a pass over a list, from its steps and back to them.
* `foldlM_eq_ok`, `foldlM_preserves`: a pass that carries a state, and what it keeps.
* `Succeeds`: a computation gives a value; `succeeds_bind`, `succeeds_mapM` and `succeeds_foldlM` say
  when one that is made of steps does.
* `forall_parts_concat`: what each element meets behind those before it.
-/

namespace CakeMonitor

variable {ε α β : Type}

theorem bind_eq_ok {x : Except ε α} {f : α → Except ε β} {b : β} :
    (x >>= f) = .ok b ↔ ∃ a, x = .ok a ∧ f a = .ok b := by
  constructor
  · intro h
    cases x with
    | error e => cases h
    | ok a => exact ⟨a, rfl, h⟩
  · rintro ⟨a, rfl, h⟩
    exact h

theorem map_eq_ok {x : Except ε α} {f : α → β} {b : β} :
    x.map f = .ok b ↔ ∃ a, x = .ok a ∧ f a = b := by
  constructor
  · intro h
    cases x with
    | error e => cases h
    | ok a => exact ⟨a, rfl, Except.ok.inj h⟩
  · rintro ⟨a, rfl, rfl⟩
    rfl

theorem mapError_eq_ok {ε' : Type} {x : Except ε α} {f : ε → ε'} {a : α} :
    x.mapError f = .ok a ↔ x = .ok a := by
  cases x with
  | error e => exact ⟨nofun, nofun⟩
  | ok b => exact ⟨fun h => congrArg Except.ok (Except.ok.inj h), fun h =>
      congrArg Except.ok (Except.ok.inj h)⟩

/-- A pass whose steps all succeed. -/
theorem mapM_eq_ok {f : α → Except ε β} {g : α → β} :
    ∀ {l : List α}, (∀ a ∈ l, f a = .ok (g a)) → l.mapM f = .ok (l.map g)
  | [], _ => rfl
  | a :: l, h => by
    rw [List.mapM_cons, h a List.mem_cons_self,
      mapM_eq_ok fun b hb => h b (List.mem_cons_of_mem a hb)]
    rfl

/-- A pass is decided by what its steps give. -/
theorem mapM_congr_map {f : α → Except ε β} :
    ∀ {l m : List α}, l.map f = m.map f → l.mapM f = m.mapM f
  | [], [], _ => rfl
  | a :: l, b :: m, h => by
    obtain ⟨hab, hlm⟩ := List.cons.inj h
    rw [List.mapM_cons, List.mapM_cons, hab, mapM_congr_map hlm]

/-- A pass that succeeds did so at every step. -/
theorem forall₂_of_mapM {f : α → Except ε β} :
    ∀ {l : List α} {out : List β}, l.mapM f = .ok out → List.Forall₂ (fun a b => f a = .ok b) l out
  | [], out, h => by
    obtain rfl := Except.ok.inj h
    exact .nil
  | a :: l, out, h => by
    rw [List.mapM_cons] at h
    obtain ⟨b, hb, h⟩ := bind_eq_ok.mp h
    obtain ⟨bs, hbs, h⟩ := bind_eq_ok.mp h
    obtain rfl := Except.ok.inj h
    exact .cons hb (forall₂_of_mapM hbs)

theorem map_eq_of_forall₂ {γ : Type} {R : α → β → Prop} {f : α → γ} {g : β → γ}
    (h : ∀ a b, R a b → g b = f a) {l : List α} {out : List β} (hl : List.Forall₂ R l out) :
    out.map g = l.map f := by
  induction hl with
  | nil => rfl
  | cons hab _ ih => rw [List.map_cons, List.map_cons, h _ _ hab, ih]

/-- What holds of the result of every step holds of all results. -/
theorem forall_of_mapM {f : α → Except ε β} {P : β → Prop} (h : ∀ a b, f a = .ok b → P b)
    {l : List α} {out : List β} (hl : l.mapM f = .ok out) : ∀ b ∈ out, P b := by
  have hsteps := forall₂_of_mapM hl
  clear hl
  induction hsteps with
  | nil => exact List.forall_mem_nil P
  | cons hab _ ih => exact List.forall_mem_cons.mpr ⟨h _ _ hab, ih⟩

/-- Passes over two lists of one length that agree position by position. -/
theorem mapM_zipIdx_congr {γ : Type} {f : α × Nat → Except ε γ} {g : β × Nat → Except ε γ} :
    ∀ {l : List α} {m : List β} {k : Nat}, l.length = m.length →
      (∀ i a b, l[i]? = some a → m[i]? = some b → f (a, k + i) = g (b, k + i)) →
      (l.zipIdx k).mapM f = (m.zipIdx k).mapM g
  | [], [], _, _, _ => rfl
  | a :: l, b :: m, k, hlength, h => by
    have hrest : (l.zipIdx (k + 1)).mapM f = (m.zipIdx (k + 1)).mapM g := by
      refine mapM_zipIdx_congr (Nat.succ.inj hlength) fun i a' b' ha' hb' => ?_
      rw [Nat.add_assoc, Nat.add_comm 1 i]
      exact h (i + 1) a' b' ha' hb'
    have hfirst : f (a, k) = g (b, k) := h 0 a b rfl rfl
    rw [List.zipIdx_cons, List.zipIdx_cons, List.mapM_cons, List.mapM_cons, hfirst, hrest]

/-- What such a pass gives in one position. -/
theorem getElem?_of_mapM_zipIdx {f : α × Nat → Except ε β} {l : List α} {out : List β}
    (h : l.zipIdx.mapM f = .ok out) {i : Nat} {b : β} (hb : out[i]? = some b) :
    ∃ a, l[i]? = some a ∧ f (a, i) = .ok b := by
  obtain ⟨hlength, hget⟩ := List.forall₂_iff_get.mp (forall₂_of_mapM h)
  obtain ⟨hi, rfl⟩ := List.getElem?_eq_some_iff.mp hb
  have hi' : i < l.length := by rwa [← hlength, List.length_zipIdx] at hi
  refine ⟨l[i], List.getElem?_eq_getElem hi', ?_⟩
  simpa using hget i (by rwa [List.length_zipIdx]) hi

theorem foldlM_cons_ok {f : β → α → Except ε β} {b c : β} {a : α} (h : f b a = .ok c) (l : List α) :
    (a :: l).foldlM f b = l.foldlM f c := by
  rw [List.foldlM_cons, h]
  rfl

/-- A pass that carries a state, all of whose steps succeed. -/
theorem foldlM_eq_ok {f : β → α → Except ε β} {g : β → α → β} :
    ∀ {l : List α} {b : β}, (∀ b, ∀ a ∈ l, f b a = .ok (g b a)) → l.foldlM f b = .ok (l.foldl g b)
  | [], _, _ => rfl
  | a :: l, b, h => by
    rw [foldlM_cons_ok (h b a List.mem_cons_self), List.foldl_cons]
    exact foldlM_eq_ok fun b c hc => h b c (List.mem_cons_of_mem a hc)

/-- What every step keeps, a pass that carries a state keeps. -/
theorem foldlM_preserves {f : β → α → Except ε β} {P : β → Prop}
    (h : ∀ b a c, f b a = .ok c → P b → P c) :
    ∀ {l : List α} {b c : β}, l.foldlM f b = .ok c → P b → P c
  | [], b, c, hl, hb => by
    obtain rfl := Except.ok.inj hl
    exact hb
  | a :: l, b, c, hl, hb => by
    rw [List.foldlM_cons] at hl
    obtain ⟨d, hd, hl⟩ := bind_eq_ok.mp hl
    exact foldlM_preserves h hl (h b a d hd hb)

/-! ## Success -/

/-- The computation gives a value. -/
def Succeeds (x : Except ε α) : Prop := ∃ a, x = .ok a

@[simp] theorem succeeds_ok (a : α) : Succeeds (.ok a : Except ε α) := ⟨a, rfl⟩

@[simp] theorem not_succeeds_error (e : ε) : ¬ Succeeds (.error e : Except ε α) := nofun

@[simp] theorem succeeds_map {x : Except ε α} {f : α → β} : Succeeds (x.map f) ↔ Succeeds x := by
  cases x with
  | error e => exact ⟨nofun, nofun⟩
  | ok a => exact ⟨fun _ => ⟨a, rfl⟩, fun _ => ⟨f a, rfl⟩⟩

/-- Two steps succeed when the first does and the second does behind it. -/
theorem succeeds_bind {x : Except ε α} {f : α → Except ε β} :
    Succeeds (x >>= f) ↔ ∃ a, x = .ok a ∧ Succeeds (f a) := by
  constructor
  · rintro ⟨b, hb⟩
    obtain ⟨a, ha, hb⟩ := bind_eq_ok.mp hb
    exact ⟨a, ha, b, hb⟩
  · rintro ⟨a, rfl, h⟩
    exact h

/-- The second of two steps may depend on the first in its value and not in its success. -/
theorem succeeds_bind_and {x : Except ε α} {f : α → Except ε β} {P : Prop}
    (h : ∀ a, x = .ok a → (Succeeds (f a) ↔ P)) : Succeeds (x >>= f) ↔ Succeeds x ∧ P := by
  rw [succeeds_bind]
  constructor
  · rintro ⟨a, ha, hf⟩
    exact ⟨⟨a, ha⟩, (h a ha).mp hf⟩
  · rintro ⟨⟨a, ha⟩, hp⟩
    exact ⟨a, ha, (h a ha).mpr hp⟩

theorem succeeds_bind_pure {x : Except ε α} (f : α → β) :
    Succeeds (x >>= fun a => pure (f a)) ↔ Succeeds x := by
  cases x with
  | error e => exact ⟨nofun, nofun⟩
  | ok a => exact ⟨fun _ => ⟨a, rfl⟩, fun _ => ⟨f a, rfl⟩⟩

/-- A pass succeeds when every step does. -/
theorem succeeds_mapM {f : α → Except ε β} : ∀ {l : List α},
    Succeeds (l.mapM f) ↔ ∀ a ∈ l, Succeeds (f a)
  | [] => ⟨nofun, fun _ => ⟨[], rfl⟩⟩
  | a :: l => by
    have hrest (b : β) : Succeeds (l.mapM f >>= fun bs => pure (b :: bs)) ↔ ∀ a ∈ l, Succeeds (f a) :=
      (succeeds_bind_pure _).trans succeeds_mapM
    rw [List.mapM_cons, succeeds_bind_and fun b _ => hrest b, List.forall_mem_cons]

/-- So does a pass that carries a state, when no state decides over the success of a step. -/
theorem succeeds_foldlM {f : β → α → Except ε β} {P : α → Prop}
    (h : ∀ b a, Succeeds (f b a) ↔ P a) : ∀ {l : List α} {b : β},
    Succeeds (l.foldlM f b) ↔ ∀ a ∈ l, P a
  | [], b => ⟨nofun, fun _ => ⟨b, rfl⟩⟩
  | a :: l, b => by
    rw [List.foldlM_cons, succeeds_bind_and fun c _ => succeeds_foldlM h, h, List.forall_mem_cons]

/-! ## One element behind those before it -/

section

variable {P : List α → α → Prop} {l : List α} {b : α}

theorem forall_parts_nil : ∀ earlier a, earlier ++ [a] <+: [] → P earlier a := fun earlier a hpart =>
  absurd (List.prefix_nil.mp hpart) (List.concat_ne_nil a earlier)

/-- What holds of each element behind those before it, holds of the last one behind all others. -/
theorem forall_parts_concat : (∀ earlier a, earlier ++ [a] <+: l ++ [b] → P earlier a)
    ↔ (∀ earlier a, earlier ++ [a] <+: l → P earlier a) ∧ P l b := by
  constructor
  · intro h
    exact ⟨fun earlier a hpart => h earlier a (hpart.trans (List.prefix_append l [b])),
      h l b (List.prefix_refl _)⟩
  · rintro ⟨hbefore, hlast⟩ earlier a hpart
    rcases List.prefix_concat_iff.mp hpart with heq | hshorter
    · obtain ⟨rfl, ha⟩ := List.append_inj' heq rfl
      obtain rfl := List.singleton_inj.mp ha
      exact hlast
    · exact hbefore earlier a hshorter

end

end CakeMonitor
