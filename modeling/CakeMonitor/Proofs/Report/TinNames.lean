import CakeMonitor.Proofs.Fallible
import CakeMonitor.Proofs.Text.Words
import CakeMonitor.Report.Table
import Mathlib.Data.List.Chain

/-!
# The names in the header of a tin table

The words of a header are put together to names from left to right: `Best` takes an `Effort` behind it, `Tin`
takes any word, and all others stand alone, a last `Tin` or `Best` too. No word is lost, and names that were
written out as words come back.

* `IsName`, `Merges`: the names that a header can have, and two of them that read as one.
* `joinNames_bestEffort`, `joinNames_tin`, `joinNames_single`: how the words in front go together.
* `join_joinNames`: no word is lost; `joinNames_flatMap_words`: names come back.
* `names_joined`: both, and a table with these names has a tin for each.
-/

namespace CakeMonitor.TinTable

open Text (IsWord space)

/-- The name of a tin, with no white space but between its two words if it has two. -/
inductive IsName : Text → Prop
  | bestEffort : IsName "Best Effort"
  | numbered {v : Text} (token : IsWord v) : IsName (("Tin " : Text) ++ v)
  | single {w : Text} (word : IsWord w) (alone : w ≠ "Tin") : IsName w

/-- The names would be read as one if the second followed the first. -/
def Merges (first second : Text) : Prop := first = "Best" ∧ second.words.head? = some ("Effort" : Text)

instance (first second : Text) : Decidable (Merges first second) :=
  inferInstanceAs (Decidable (first = "Best" ∧ second.words.head? = some ("Effort" : Text)))

/-! ## The words in front -/

theorem joinNames_bestEffort (ws : List Text) :
    joinNames ("Best" :: "Effort" :: ws) = ("Best Effort" : Text) :: joinNames ws := rfl

/-- `Tin` takes any word, `Tin` and `Effort` too. -/
theorem joinNames_tin (v : Text) (ws : List Text) :
    joinNames ("Tin" :: v :: ws) = (("Tin " : Text) ++ v) :: joinNames ws := rfl

/-- A word stands alone unless it is `Tin`, or `Best` in front of `Effort`. -/
theorem joinNames_single {w : Text} {ws : List Text} (htin : w ≠ "Tin")
    (hbest : ¬ (w = "Best" ∧ ws.head? = some ("Effort" : Text))) :
    joinNames (w :: ws) = w :: joinNames ws := by
  cases ws with
  | nil => rfl
  | cons v ws => rw [joinNames, if_neg fun h => hbest ⟨h.1, congrArg some h.2⟩, if_neg htin]

theorem joinNames_eq_nil_iff {ws : List Text} : joinNames ws = [] ↔ ws = [] := by
  constructor
  · intro h
    match ws, h with
    | [], _ => rfl
    | [w], h => cases h
    | w :: v :: ws, h =>
      unfold joinNames at h
      split_ifs at h
  · rintro rfl
    rfl

/-! ## No word is lost -/

/-- Behind equal texts, lists that join to the same text and are empty together join to the same. -/
theorem join_cons_congr {sep s t : Text} {ss ts : List Text} (hst : s = t) (hnil : ss = [] ↔ ts = [])
    (h : Text.join sep ss = Text.join sep ts) : Text.join sep (s :: ss) = Text.join sep (t :: ts) := by
  subst hst
  match ss, ts with
  | [], [] => rfl
  | [], _ :: _ => cases hnil.mp rfl
  | _ :: _, [] => cases hnil.mpr rfl
  | a :: ss, b :: ts =>
    show s ++ sep ++ Text.join sep (a :: ss) = s ++ sep ++ Text.join sep (b :: ts)
    rw [h]

/-- Two words in front may be joined first. -/
theorem join_pair (sep w v : Text) (ws : List Text) :
    Text.join sep ((w ++ sep ++ v) :: ws) = Text.join sep (w :: v :: ws) := by
  cases ws with
  | nil => rfl
  | cons u ws =>
    show w ++ sep ++ v ++ sep ++ _ = w ++ sep ++ (v ++ sep ++ _)
    simp only [List.append_assoc]

/-- **No word is lost**: the names have the same text as the words. -/
theorem join_joinNames (words : List Text) :
    Text.join [space] (joinNames words) = Text.join [space] words := by
  induction words using joinNames.induct with
  | case1 => rfl
  | case2 w => rfl
  | case3 w v ws hbest ih =>
    obtain ⟨rfl, rfl⟩ := hbest
    rw [joinNames_bestEffort, ← join_pair]
    exact join_cons_congr rfl joinNames_eq_nil_iff ih
  | case4 v ws hbest ih =>
    rw [joinNames_tin, ← join_pair]
    exact join_cons_congr rfl joinNames_eq_nil_iff ih
  | case5 w v ws hbest htin ih =>
    rw [joinNames, if_neg hbest, if_neg htin]
    exact join_cons_congr rfl (joinNames_eq_nil_iff.trans (by simp)) ih

/-! ## Names come back -/

theorem words_tin {v : Text} (h : IsWord v) :
    Text.words (("Tin " : Text) ++ v) = ([("Tin" : Text), v] : List Text) := by
  have hsplit : ("Tin " : Text) ++ v = ("Tin" : Text) ++ space :: v := rfl
  rw [hsplit, Text.words_append_blank Text.isBlank_space, h.words_eq]
  rfl

/-- A name begins with a word. -/
theorem IsName.exists_words {n : Text} (h : IsName n) : ∃ w ws, n.words = w :: ws := by
  cases h with
  | bestEffort => exact ⟨_, _, rfl⟩
  | numbered token => exact ⟨_, _, words_tin token⟩
  | single word => exact ⟨_, _, word.words_eq⟩

/-- What follows a name begins with its next name. -/
theorem head?_flatMap_words {names : List Text} (h : ∀ n ∈ names, IsName n) :
    (names.flatMap Text.words).head? = names.head?.bind fun n => n.words.head? := by
  cases names with
  | nil => rfl
  | cons n names =>
    obtain ⟨w, ws, hwords⟩ := (h n List.mem_cons_self).exists_words
    rw [List.flatMap_cons, hwords, List.head?_cons, Option.bind_some, hwords]
    rfl

/-- **Names come back** from their words, when no two of them read as one. -/
theorem joinNames_flatMap_words {names : List Text} (hnames : ∀ n ∈ names, IsName n)
    (hapart : names.IsChain fun a b => ¬ Merges a b) :
    joinNames (names.flatMap Text.words) = names := by
  induction names with
  | nil => rfl
  | cons n names ih =>
    obtain ⟨hn, hnames⟩ := List.forall_mem_cons.mp hnames
    have hrest := ih hnames hapart.tail
    rw [List.flatMap_cons]
    cases hn with
    | bestEffort =>
      have hwords : Text.words "Best Effort" = ["Best", "Effort"] := by decide
      rw [hwords]
      exact congrArg (_ :: ·) hrest
    | numbered token =>
      rw [words_tin token]
      exact congrArg (_ :: ·) hrest
    | single word alone =>
      -- the word behind it is the first one of the next name
      have hbest : ¬ (n = "Best" ∧ (names.flatMap Text.words).head? = some ("Effort" : Text)) := by
        rintro ⟨hn, hnext⟩
        rw [head?_flatMap_words hnames] at hnext
        obtain ⟨m, hm, heffort⟩ := Option.bind_eq_some_iff.mp hnext
        exact hapart.rel_head? hm ⟨hn, heffort⟩
      rw [word.words_eq, List.singleton_append, joinNames_single alone hbest, hrest]

/-! ## The tins of a table -/

/-- An assembled table has a tin for each name. -/
theorem names_assemble {names : List Text} {rows : Rows} {tins : List Tin}
    (h : assemble names rows = .ok tins) : tins.map (·.name) = names := by
  have hname : ∀ (c : Text × Nat) (t : Tin), tin rows c.1 c.2 = .ok t → t.name = c.1 := by
    intro c t ht
    obtain ⟨counters, -, ht⟩ := bind_eq_ok.mp ht
    obtain rfl := Except.ok.inj ht
    rfl
  rw [map_eq_of_forall₂ hname (forall₂_of_mapM h), List.zipIdx_map_fst]

/-- **The names of the tins.** Whatever words a header has, its names have the same text. Names that were
written out in words come back one by one, unless `Best` stands in front of a name that begins with `Effort`;
so the table has one tin for each column. -/
theorem names_joined :
    (∀ words : List Text, Text.join [space] (joinNames words) = Text.join [space] words) ∧
    ∀ names : List Text, (∀ n ∈ names, IsName n) → (names.IsChain fun a b => ¬ Merges a b) →
      joinNames (names.flatMap Text.words) = names ∧
      ∀ rows tins, assemble (joinNames (names.flatMap Text.words)) rows = .ok tins →
        tins.map (·.name) = names ∧ tins.length = names.length := by
  refine ⟨join_joinNames, fun names hnames hapart => ?_⟩
  have hback := joinNames_flatMap_words hnames hapart
  refine ⟨hback, fun rows tins htins => ?_⟩
  rw [hback] at htins
  have hmap := names_assemble htins
  exact ⟨hmap, by rw [← hmap, List.length_map]⟩

/-- Names in which `Tin`, `Best` and `Effort` stand in every place. -/
def crossedNames : List Text :=
  ["Best", "Tin Best", "Effort", "Best Effort", "Tin Tin", "Best", "Tin Effort", "Best"]

theorem isName_crossedNames : ∀ n ∈ crossedNames, IsName n := by
  simp only [crossedNames, List.forall_mem_cons]
  exact ⟨.single (by decide) (by decide), .numbered (v := "Best") (by decide),
    .single (by decide) (by decide), .bestEffort, .numbered (v := "Tin") (by decide),
    .single (by decide) (by decide), .numbered (v := "Effort") (by decide),
    .single (by decide) (by decide), List.forall_mem_nil _⟩

theorem names_joined_crossedNames :
    Text.join [space] (joinNames ["Best", "Effort", "Tin"]) = "Best Effort Tin" ∧
      joinNames (crossedNames.flatMap Text.words) = crossedNames ∧
      ∃ tins, assemble (joinNames (crossedNames.flatMap Text.words)) [] = .ok tins ∧
        tins.length = 8 := by
  obtain ⟨hlossless, hback⟩ := names_joined
  obtain ⟨hnames, htins⟩ := hback crossedNames isName_crossedNames (by decide)
  have hassemble : ∃ tins, assemble (joinNames (crossedNames.flatMap Text.words)) [] = .ok tins := by
    rw [hnames]
    exact ⟨_, rfl⟩
  obtain ⟨tins, hassemble⟩ := hassemble
  exact ⟨hlossless _, hnames, tins, hassemble, (htins [] tins hassemble).2⟩

end CakeMonitor.TinTable
