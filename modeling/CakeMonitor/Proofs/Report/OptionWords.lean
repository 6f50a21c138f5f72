import CakeMonitor.Report.Header
import Mathlib.Data.List.Basic

/-!
# The option words of a header

The words behind the fifth are read from left to right. A word that announces a value takes the next one
with it, which is then not read itself, whatever it is. Each option has the value that the last of the
words read gives it.

* `ReadAt`, `Sets`, `MadeAt`: which words are read, and what they set.
* `LastMade`: what the last of them sets that concerns its option.
* `Gives`: the value that a header gives an option.
* `made_cons`, `made_pair`: how reading goes on behind a word; `lastIn_optionChanges` and
  `optionChanges_append` follow them through all words.
* `options_of_words`: the options of a header, and what words behind it change.
-/

namespace CakeMonitor

/-- The option that a change sets. -/
def OptionChange.option : OptionChange → TextOption ⊕ Switch
  | text o _ => .inl o
  | switch s _ => .inr s

namespace Header

/-! ## Reading by places -/

/-- The word announces a value. -/
def Announces (w : Text) : Prop := ∃ o, (w, o) ∈ arguments

/-- The places that are read: the first one, the one behind a word that announces no value, and the
second one behind a word that announces one. -/
inductive ReadAt (words : List Text) : Nat → Prop
  | first : ReadAt words 0
  | next {i : Nat} {w : Text} (here : ReadAt words i) (word : words[i]? = some w)
      (alone : ¬ Announces w) : ReadAt words (i + 1)
  | behindValue {i : Nat} {w : Text} (here : ReadAt words i) (word : words[i]? = some w)
      (announces : Announces w) : ReadAt words (i + 2)

/-- What a word sets, given the word behind it. -/
inductive Sets : Text → Option Text → OptionChange → Prop
  | value {w v : Text} {o : TextOption} (argument : (w, o) ∈ arguments) :
      Sets w (some v) (.text o v)
  | diffserv {w : Text} {behind : Option Text} (mode : w ∈ diffservModes) :
      Sets w behind (.text .diffservMode w)
  | flow {w : Text} {behind : Option Text} (mode : w ∈ flowModes) :
      Sets w behind (.text .flowMode w)
  | flag {w : Text} {behind : Option Text} {c : OptionChange} (flag : (w, c) ∈ flags) :
      Sets w behind c

/-- The word at a place is read, and it makes that change. -/
def MadeAt (words : List Text) (i : Nat) (c : OptionChange) : Prop :=
  ReadAt words i ∧ ∃ w, words[i]? = some w ∧ Sets w words[i + 1]? c

/-- None of the words that are read sets the option. -/
def Untouched (words : List Text) (o : TextOption ⊕ Switch) : Prop :=
  ∀ i d, MadeAt words i d → d.option ≠ o

/-- The change is made, and none behind it sets the same option. -/
def LastMade (words : List Text) (c : OptionChange) : Prop :=
  ∃ i, MadeAt words i c ∧ ∀ j d, MadeAt words j d → d.option = c.option → j ≤ i

/-- The last word is read and announces a value, which is missing. -/
def Pending (words : List Text) : Prop :=
  ∃ i w, ReadAt words i ∧ words[i]? = some w ∧ Announces w ∧ words.length = i + 1

/-- The word `ingress` is read somewhere. -/
def Incoming (words : List Text) : Prop := ∃ i, ReadAt words i ∧ words[i]? = some ("ingress" : Text)

/-- The word means nothing in a header. -/
def Unknown (w : Text) : Prop := ¬ Announces w ∧ ∀ behind c, ¬ Sets w behind c

/-- The header gives an option this value. -/
def Gives (h : Header) : OptionChange → Prop
  | .text o v => lastText? o h.changes = some v
  | .switch s b => lastSwitch? s h.changes = some b

/-! ## The tables -/

theorem argument?_of_mem : ∀ a ∈ arguments, argument? a.1 = some a.2 := by decide

theorem keyword?_of_mode :
    (∀ m ∈ diffservModes, keyword? m = some (.text .diffservMode m)) ∧
      ∀ m ∈ flowModes, keyword? m = some (.text .flowMode m) := by decide

theorem keyword?_of_flag : ∀ f ∈ flags, keyword? f.1 = some f.2 := by decide

/-- A word that announces a value sets nothing by itself. -/
theorem keyword?_of_argument : ∀ a ∈ arguments, keyword? a.1 = none := by decide

theorem argument?_eq_some_iff {w : Text} {o : TextOption} :
    argument? w = some o ↔ (w, o) ∈ arguments := by
  constructor
  · intro h
    unfold argument? at h
    obtain ⟨a, ha, rfl⟩ := Option.map_eq_some_iff.mp h
    have hw : w = a.1 := by simpa using List.find?_some ha
    rw [hw]
    exact List.mem_of_find?_eq_some ha
  · intro h
    exact argument?_of_mem (w, o) h

theorem announces_iff {w : Text} : Announces w ↔ ∃ o, argument? w = some o := by
  simp only [Announces, argument?_eq_some_iff]

/-- The word behind matters to a word that announces a value only. -/
theorem sets_of_alone {w : Text} (h : ¬ Announces w) (behind : Option Text) (c : OptionChange) :
    Sets w behind c ↔ keyword? w = some c := by
  constructor
  · intro hset
    cases hset with
    | value argument => exact absurd ⟨_, argument⟩ h
    | diffserv mode => exact keyword?_of_mode.1 w mode
    | flow mode => exact keyword?_of_mode.2 w mode
    | flag flag => exact keyword?_of_flag (w, c) flag
  · intro hc
    unfold keyword? at hc
    split_ifs at hc with hdiffserv hflow
    · obtain rfl := Option.some.inj hc
      exact .diffserv hdiffserv
    · obtain rfl := Option.some.inj hc
      exact .flow hflow
    · obtain ⟨f, hf, rfl⟩ := Option.map_eq_some_iff.mp hc
      have hw : w = f.1 := by simpa using List.find?_some hf
      rw [hw]
      exact .flag (List.mem_of_find?_eq_some hf)

/-- A word that announces a value sets its option to the word behind it. -/
theorem sets_of_argument {w : Text} {o : TextOption} (h : (w, o) ∈ arguments) (behind : Option Text)
    (c : OptionChange) : Sets w behind c ↔ ∃ v, behind = some v ∧ c = .text o v := by
  have hkeyword : keyword? w = none := keyword?_of_argument (w, o) h
  constructor
  · intro hset
    cases hset with
    | @value v p argument =>
      have hsame : some p = some o :=
        (argument?_eq_some_iff.mpr argument).symm.trans (argument?_eq_some_iff.mpr h)
      obtain rfl := Option.some.inj hsame
      exact ⟨v, rfl, rfl⟩
    | diffserv mode => exact absurd ((keyword?_of_mode.1 w mode).symm.trans hkeyword) nofun
    | flow mode => exact absurd ((keyword?_of_mode.2 w mode).symm.trans hkeyword) nofun
    | flag flag => exact absurd ((keyword?_of_flag (w, c) flag).symm.trans hkeyword) nofun
  · rintro ⟨v, rfl, rfl⟩
    exact .value h

/-! ## Reading goes on behind a word -/

variable {w v : Text} {ws : List Text}

/-- Behind a word that announces no value, the rest is read as if it stood alone. -/
theorem readAt_cons (h : ¬ Announces w) {i : Nat} :
    ReadAt (w :: ws) i ↔ i = 0 ∨ ∃ j, i = j + 1 ∧ ReadAt ws j := by
  constructor
  · intro hread
    induction hread with
    | first => exact .inl rfl
    | @next i u _ word alone ih =>
      rcases ih with rfl | ⟨j, rfl, hj⟩
      · exact .inr ⟨0, rfl, .first⟩
      · exact .inr ⟨j + 1, rfl, .next hj word alone⟩
    | @behindValue i u _ word announces ih =>
      rcases ih with rfl | ⟨j, rfl, hj⟩
      · obtain rfl : w = u := Option.some.inj word
        exact absurd announces h
      · exact .inr ⟨j + 2, rfl, .behindValue hj word announces⟩
  · rintro (rfl | ⟨j, rfl, hj⟩)
    · exact .first
    · induction hj with
      | first => exact .next .first rfl h
      | next _ word alone ih => exact .next ih word alone
      | behindValue _ word announces ih => exact .behindValue ih word announces

/-- **A word that was announced is not read**, and the rest behind it is read as if it stood alone. -/
theorem readAt_pair (h : Announces w) {i : Nat} :
    ReadAt (w :: v :: ws) i ↔ i = 0 ∨ ∃ j, i = j + 2 ∧ ReadAt ws j := by
  constructor
  · intro hread
    induction hread with
    | first => exact .inl rfl
    | @next i u _ word alone ih =>
      rcases ih with rfl | ⟨j, rfl, hj⟩
      · obtain rfl : w = u := Option.some.inj word
        exact absurd h alone
      · exact .inr ⟨j + 1, rfl, .next hj word alone⟩
    | @behindValue i u _ word announces ih =>
      rcases ih with rfl | ⟨j, rfl, hj⟩
      · exact .inr ⟨0, rfl, .first⟩
      · exact .inr ⟨j + 2, rfl, .behindValue hj word announces⟩
  · rintro (rfl | ⟨j, rfl, hj⟩)
    · exact .first
    · induction hj with
      | first => exact .behindValue .first rfl h
      | next _ word alone ih => exact .next ih word alone
      | behindValue _ word announces ih => exact .behindValue ih word announces

/-- The changes of some words: that of the first, if there is one, and those of the words that are read
`k` places further on. -/
def Continues (words rest : List Text) (k : Nat) (first : Option OptionChange) : Prop :=
  ∀ i c, MadeAt words i c ↔ i = 0 ∧ first = some c ∨ ∃ j, i = j + k ∧ MadeAt rest j c

theorem made_cons (h : ¬ Announces w) : Continues (w :: ws) ws 1 (keyword? w) := by
  intro i c
  unfold MadeAt
  rw [readAt_cons h]
  constructor
  · rintro ⟨rfl | ⟨j, rfl, hj⟩, u, hu, hset⟩
    · obtain rfl : w = u := Option.some.inj hu
      exact .inl ⟨rfl, (sets_of_alone h _ c).mp hset⟩
    · exact .inr ⟨j, rfl, hj, u, hu, hset⟩
  · rintro (⟨rfl, hc⟩ | ⟨j, rfl, hj, u, hu, hset⟩)
    · exact ⟨.inl rfl, w, rfl, (sets_of_alone h _ c).mpr hc⟩
    · exact ⟨.inr ⟨j, rfl, hj⟩, u, hu, hset⟩

theorem made_pair {o : TextOption} (h : (w, o) ∈ arguments) :
    Continues (w :: v :: ws) ws 2 (some (.text o v)) := by
  intro i c
  unfold MadeAt
  rw [readAt_pair ⟨o, h⟩]
  constructor
  · rintro ⟨rfl | ⟨j, rfl, hj⟩, u, hu, hset⟩
    · obtain rfl : w = u := Option.some.inj hu
      obtain ⟨v', hv, rfl⟩ := (sets_of_argument h _ c).mp hset
      obtain rfl : v = v' := Option.some.inj hv
      exact .inl ⟨rfl, rfl⟩
    · exact .inr ⟨j, rfl, hj, u, hu, hset⟩
  · rintro (⟨rfl, hc⟩ | ⟨j, rfl, hj, u, hu, hset⟩)
    · exact ⟨.inl rfl, w, rfl, (sets_of_argument h _ c).mpr ⟨v, rfl, (Option.some.inj hc).symm⟩⟩
    · exact ⟨.inr ⟨j, rfl, hj⟩, u, hu, hset⟩

theorem Continues.exists_iff {words rest : List Text} {k : Nat} {first : Option OptionChange}
    (h : Continues words rest k first) (c : OptionChange) :
    (∃ i, MadeAt words i c) ↔ first = some c ∨ ∃ j, MadeAt rest j c := by
  constructor
  · rintro ⟨i, hi⟩
    rcases (h i c).mp hi with ⟨-, hc⟩ | ⟨j, -, hj⟩
    · exact .inl hc
    · exact .inr ⟨j, hj⟩
  · rintro (hc | ⟨j, hj⟩)
    · exact ⟨0, (h 0 c).mpr (.inl ⟨rfl, hc⟩)⟩
    · exact ⟨j + k, (h (j + k) c).mpr (.inr ⟨j, rfl, hj⟩)⟩

/-- What the rest makes last is made last, and the first change if the rest does not touch its option. -/
theorem Continues.lastMade_iff {words rest : List Text} {k : Nat} {first : Option OptionChange}
    (h : Continues words rest k first) (hk : 0 < k) (c : OptionChange) :
    LastMade words c ↔ LastMade rest c ∨ Untouched rest c.option ∧ first = some c := by
  constructor
  · rintro ⟨i, hi, hlast⟩
    rcases (h i c).mp hi with ⟨rfl, hc⟩ | ⟨j, rfl, hj⟩
    · refine .inr ⟨fun j d hd hoption => ?_, hc⟩
      have hle := hlast (j + k) d ((h (j + k) d).mpr (.inr ⟨j, rfl, hd⟩)) hoption
      omega
    · refine .inl ⟨j, hj, fun j' d hd hoption => ?_⟩
      have hle := hlast (j' + k) d ((h (j' + k) d).mpr (.inr ⟨j', rfl, hd⟩)) hoption
      omega
  · rintro (⟨j, hj, hlast⟩ | ⟨huntouched, hc⟩)
    · refine ⟨j + k, (h (j + k) c).mpr (.inr ⟨j, rfl, hj⟩), fun i d hd hoption => ?_⟩
      rcases (h i d).mp hd with ⟨rfl, -⟩ | ⟨j', rfl, hj'⟩
      · exact Nat.zero_le _
      · exact Nat.add_le_add_right (hlast j' d hj' hoption) k
    · refine ⟨0, (h 0 c).mpr (.inl ⟨rfl, hc⟩), fun i d hd hoption => ?_⟩
      rcases (h i d).mp hd with ⟨rfl, -⟩ | ⟨j', -, hj'⟩
      · exact Nat.le_refl 0
      · exact absurd hoption (huntouched j' d hj')

/-- Without words nothing is set. -/
theorem not_madeAt_nil (i : Nat) (c : OptionChange) : ¬ MadeAt [] i c := by
  rintro ⟨-, u, hu, -⟩
  cases hu

/-- A value that is missing is not set. -/
theorem not_madeAt_single (h : Announces w) (i : Nat) (c : OptionChange) : ¬ MadeAt [w] i c := by
  obtain ⟨o, ho⟩ := h
  rintro ⟨-, u, hu, hset⟩
  cases i with
  | zero =>
    obtain rfl : w = u := Option.some.inj hu
    obtain ⟨v, hv, -⟩ := (sets_of_argument ho _ c).mp hset
    cases hv
  | succ i => cases hu

/-! ## The changes of all words -/

/-- The change stands in the list, and none behind it sets the same option. -/
def LastIn (changes : List OptionChange) (c : OptionChange) : Prop :=
  changes.reverse.find? (·.option = c.option) = some c

theorem lastIn_append (front back : List OptionChange) (c : OptionChange) :
    LastIn (front ++ back) c
      ↔ LastIn back c ∨ (∀ d ∈ back, d.option ≠ c.option) ∧ LastIn front c := by
  unfold LastIn
  rw [List.reverse_append, List.find?_append]
  cases hback : back.reverse.find? (·.option = c.option) with
  | none =>
    have huntouched : ∀ d ∈ back, d.option ≠ c.option := by simpa using hback
    simp only [Option.none_or, reduceCtorEq, false_or]
    exact (and_iff_right huntouched).symm
  | some d =>
    have hoption : d.option = c.option := by simpa using List.find?_some hback
    have hd : d ∈ back := List.mem_reverse.mp (List.mem_of_find?_eq_some hback)
    have htouched : ¬ ∀ e ∈ back, e.option ≠ c.option := fun h => h d hd hoption
    simp [htouched]

/-- An option that is set is set last somewhere. -/
theorem exists_lastIn {changes : List OptionChange} {c : OptionChange} (h : c ∈ changes) :
    ∃ d, LastIn changes d ∧ d.option = c.option := by
  have hsome : (changes.reverse.find? (·.option = c.option)).isSome = true :=
    List.find?_isSome.mpr ⟨c, List.mem_reverse.mpr h, by simp⟩
  obtain ⟨d, hd⟩ := Option.isSome_iff_exists.mp hsome
  have hoption : d.option = c.option := by simpa using List.find?_some hd
  refine ⟨d, ?_, hoption⟩
  unfold LastIn
  rw [hoption]
  exact hd

theorem lastIn_toList (first : Option OptionChange) (c : OptionChange) :
    LastIn first.toList c ↔ first = some c := by
  unfold LastIn
  cases first with
  | none => simp
  | some d =>
    by_cases h : d.option = c.option
    · simp [h]
    · have hne : d ≠ c := fun he => h (he ▸ rfl)
      simp [h, hne]

theorem optionChanges_alone (h : ¬ Announces w) :
    optionChanges (w :: ws) = (keyword? w).toList ++ optionChanges ws := by
  have hnone : argument? w = none :=
    Option.eq_none_iff_forall_ne_some.mpr fun o ho => h (announces_iff.mpr ⟨o, ho⟩)
  rw [optionChanges, hnone]

theorem optionChanges_pair {o : TextOption} (h : (w, o) ∈ arguments) :
    optionChanges (w :: v :: ws) = .text o v :: optionChanges ws := by
  rw [optionChanges, argument?_eq_some_iff.mpr h]

theorem optionChanges_single (h : Announces w) : optionChanges [w] = [] := by
  obtain ⟨o, ho⟩ := announces_iff.mp h
  rw [optionChanges, ho]

/-- Words are read from the front: none is left, a value is missing, a value follows, or none is
announced. -/
theorem words_induct {P : List Text → Prop} (nil : P []) (missing : ∀ w, Announces w → P [w])
    (pair : ∀ w o v ws, (w, o) ∈ arguments → P ws → P (w :: v :: ws))
    (alone : ∀ w ws, ¬ Announces w → P ws → P (w :: ws)) : ∀ words, P words
  | [] => nil
  | w :: ws => by
    by_cases h : Announces w
    · cases ws with
      | nil => exact missing w h
      | cons v ws =>
        obtain ⟨o, ho⟩ := h
        exact pair w o v ws ho (words_induct nil missing pair alone ws)
    · exact alone w ws h (words_induct nil missing pair alone ws)

/-- **The changes are those of the words that are read.** -/
theorem mem_optionChanges (words : List Text) (c : OptionChange) :
    c ∈ optionChanges words ↔ ∃ i, MadeAt words i c := by
  induction words using words_induct with
  | nil => simp [optionChanges, not_madeAt_nil]
  | missing w h => simp [optionChanges_single h, not_madeAt_single h]
  | pair w o v ws h ih =>
    rw [optionChanges_pair h, List.mem_cons, ih, (made_pair h).exists_iff, Option.some_inj, eq_comm]
  | alone w ws h ih =>
    rw [optionChanges_alone h, List.mem_append, ih, (made_cons h).exists_iff, Option.mem_toList]

theorem untouched_iff (words : List Text) (o : TextOption ⊕ Switch) :
    Untouched words o ↔ ∀ d ∈ optionChanges words, d.option ≠ o := by
  unfold Untouched
  simp only [mem_optionChanges]
  constructor
  · rintro h d ⟨i, hd⟩
    exact h i d hd
  · intro h i d hd
    exact h d ⟨i, hd⟩

/-- **The last change of an option** is that of the last word that sets it. -/
theorem lastIn_optionChanges (words : List Text) (c : OptionChange) :
    LastIn (optionChanges words) c ↔ LastMade words c := by
  induction words using words_induct with
  | nil => simp [optionChanges, LastIn, LastMade, not_madeAt_nil]
  | missing w h => simp [optionChanges_single h, LastIn, LastMade, not_madeAt_single h]
  | pair w o v ws h ih =>
    rw [(made_pair h).lastMade_iff (by decide), optionChanges_pair h, ← ih, untouched_iff,
      ← lastIn_toList, ← lastIn_append]
    rfl
  | alone w ws h ih =>
    rw [(made_cons h).lastMade_iff (by decide), optionChanges_alone h, ← ih, untouched_iff,
      ← lastIn_toList, ← lastIn_append]

/-! ## Words behind words -/

theorem pending_cons (h : ¬ Announces w) : Pending (w :: ws) ↔ Pending ws := by
  unfold Pending
  constructor
  · rintro ⟨i, u, hread, hu, hannounces, hlast⟩
    rcases (readAt_cons h).mp hread with rfl | ⟨j, rfl, hj⟩
    · obtain rfl : w = u := Option.some.inj hu
      exact absurd hannounces h
    · exact ⟨j, u, hj, hu, hannounces, Nat.succ.inj hlast⟩
  · rintro ⟨j, u, hj, hu, hannounces, hlast⟩
    exact ⟨j + 1, u, (readAt_cons h).mpr (.inr ⟨j, rfl, hj⟩), hu, hannounces, congrArg (· + 1) hlast⟩

theorem pending_pair (h : Announces w) : Pending (w :: v :: ws) ↔ Pending ws := by
  unfold Pending
  constructor
  · rintro ⟨i, u, hread, hu, hannounces, hlast⟩
    rcases (readAt_pair h).mp hread with rfl | ⟨j, rfl, hj⟩
    · simp at hlast
    · exact ⟨j, u, hj, hu, hannounces, Nat.succ.inj (Nat.succ.inj hlast)⟩
  · rintro ⟨j, u, hj, hu, hannounces, hlast⟩
    exact ⟨j + 2, u, (readAt_pair h).mpr (.inr ⟨j, rfl, hj⟩), hu, hannounces, congrArg (· + 2) hlast⟩

theorem pending_single (h : Announces w) : Pending [w] := ⟨0, w, .first, rfl, h, rfl⟩

/-- **Words behind others are read as if they stood alone**, unless a value is missing in front of them. -/
theorem optionChanges_append {xs : List Text} (h : ¬ Pending xs) (ys : List Text) :
    optionChanges (xs ++ ys) = optionChanges xs ++ optionChanges ys := by
  induction xs using words_induct with
  | nil => rfl
  | missing w hw => exact absurd (pending_single hw) h
  | pair w o v ws hw ih =>
    rw [pending_pair ⟨o, hw⟩] at h
    rw [List.cons_append, List.cons_append, optionChanges_pair hw, optionChanges_pair hw, ih h,
      List.cons_append]
  | alone w ws hw ih =>
    rw [pending_cons hw] at h
    rw [List.cons_append, optionChanges_alone hw, optionChanges_alone hw, ih h, List.append_assoc]

theorem optionChanges_unknown (h : Unknown w) (ws : List Text) :
    optionChanges (w :: ws) = optionChanges ws := by
  have hnone : keyword? w = none := by
    rw [Option.eq_none_iff_forall_ne_some]
    intro c hc
    exact h.2 none c ((sets_of_alone h.1 none c).mpr hc)
  rw [optionChanges_alone h.1, hnone]
  rfl

/-- **A value is not read**, whatever word it is. -/
theorem not_readAt_value {words : List Text} {i : Nat} (hread : ReadAt words i)
    (hw : words[i]? = some w) (h : Announces w) : ¬ ReadAt words (i + 1) := by
  induction i using Nat.strongRecOn generalizing w with
  | ind i ih =>
    intro hnext
    cases hnext with
    | next _ word alone =>
      obtain rfl : w = _ := Option.some.inj (hw.symm.trans word)
      exact alone h
    | behindValue here word announces =>
      -- the word itself would be the value of the one in front of it
      exact ih _ (Nat.lt_succ_self _) here word announces hread

/-! ## The direction -/

/-- Only the word `ingress` sets the direction. -/
theorem sets_direction_iff {w : Text} {behind : Option Text} {c : OptionChange} :
    Sets w behind c ∧ c.option = .inl .direction
      ↔ w = ("ingress" : Text) ∧ c = .text .direction "ingress" := by
  constructor
  · rintro ⟨hset, hoption⟩
    cases hset with
    | @value v o argument =>
      have hother : ∀ a ∈ arguments, a.2 ≠ .direction := by decide
      exact absurd (Sum.inl.inj hoption) (hother _ argument)
    | diffserv => cases hoption
    | flow => cases hoption
    | flag flag =>
      have honly : ∀ f ∈ flags, f.2.option = .inl .direction →
          f.1 = ("ingress" : Text) ∧ f.2 = .text .direction "ingress" := by decide
      exact honly _ flag hoption
  · rintro ⟨rfl, rfl⟩
    exact ⟨.flag (by decide), rfl⟩

theorem madeAt_direction_iff {words : List Text} {i : Nat} {c : OptionChange} :
    MadeAt words i c ∧ c.option = .inl .direction
      ↔ (ReadAt words i ∧ words[i]? = some ("ingress" : Text)) ∧ c = .text .direction "ingress" := by
  constructor
  · rintro ⟨⟨hread, w, hw, hset⟩, hoption⟩
    obtain ⟨rfl, rfl⟩ := sets_direction_iff.mp ⟨hset, hoption⟩
    exact ⟨⟨hread, hw⟩, rfl⟩
  · rintro ⟨⟨hread, hw⟩, rfl⟩
    exact ⟨⟨hread, _, hw, (sets_direction_iff.mpr ⟨rfl, rfl⟩).1⟩, rfl⟩

theorem untouched_direction_iff (words : List Text) :
    Untouched words (.inl .direction) ↔ ¬ Incoming words := by
  constructor
  · rintro h ⟨i, hi⟩
    obtain ⟨hmade, hoption⟩ := madeAt_direction_iff.mpr ⟨hi, rfl⟩
    exact h i _ hmade hoption
  · intro h i d hd hoption
    exact h ⟨i, (madeAt_direction_iff.mp ⟨hd, hoption⟩).1⟩

theorem lastMade_direction_iff (words : List Text) (d : Text) :
    LastMade words (.text .direction d) ↔ d = "ingress" ∧ Incoming words := by
  constructor
  · rintro ⟨i, hi, -⟩
    obtain ⟨hread, hd⟩ := madeAt_direction_iff.mp ⟨hi, rfl⟩
    exact ⟨(OptionChange.text.inj hd).2, i, hread⟩
  · rintro ⟨rfl, i, hi⟩
    have hmade := (madeAt_direction_iff.mpr ⟨hi, rfl⟩).1
    obtain ⟨c, hc, hoption⟩ := exists_lastIn ((mem_optionChanges words _).mpr ⟨i, hmade⟩)
    rw [lastIn_optionChanges] at hc
    obtain ⟨j, hj, hlast⟩ := hc
    obtain ⟨-, rfl⟩ := madeAt_direction_iff.mp ⟨hj, hoption⟩
    exact ⟨j, hj, hlast⟩

/-! ## The header -/

theorem findSome?_text (o : TextOption) (v : Text) (changes : List OptionChange) :
    (changes.findSome? fun
      | .text p v => if p = o then some v else none
      | .switch _ _ => none) = some v
      ↔ changes.find? (·.option = .inl o) = some (.text o v) := by
  induction changes with
  | nil => simp
  | cons d ds ih =>
    cases d with
    | text p u => by_cases h : p = o <;> simp [OptionChange.option, h, ih]
    | switch s b => simp [OptionChange.option, ih]

theorem findSome?_switch (s : Switch) (b : Bool) (changes : List OptionChange) :
    (changes.findSome? fun
      | .switch t b => if t = s then some b else none
      | .text _ _ => none) = some b
      ↔ changes.find? (·.option = .inr s) = some (.switch s b) := by
  induction changes with
  | nil => simp
  | cons d ds ih =>
    cases d with
    | text p u => simp [OptionChange.option, ih]
    | switch t a => by_cases h : t = s <;> simp [OptionChange.option, h, ih]

/-- The value that a header gives is that of the last change of its option. -/
theorem gives_iff (h : Header) (c : OptionChange) : h.Gives c ↔ LastIn h.changes c := by
  cases c with
  | text o v => exact findSome?_text o v _
  | switch s b => exact findSome?_switch s b _

/-- What a header of these words says. -/
structure ReadFrom (words : List Text) (h : Header) : Prop where
  handle : words[2]?.map (·.trimEndBy (· = ':')) = some h.handle
  interface : words[4]? = some h.interface
  /-- an option has the value that the last word gives it; before any, traffic counts as outgoing -/
  gives : ∀ c, h.Gives c ↔ LastMade (words.drop 5) c ∨
    Untouched (words.drop 5) c.option ∧ c = .text .direction "egress"
  incoming : h.Gives (.text .direction "ingress") ↔ Incoming (words.drop 5)
  outgoing : h.Gives (.text .direction "egress") ↔ ¬ Incoming (words.drop 5)
  /-- a value is not read -/
  value : ∀ i w, ReadAt (words.drop 5) i → (words.drop 5)[i]? = some w → Announces w →
    ¬ ReadAt (words.drop 5) (i + 1)

theorem read?_eq {line : Text} {front options : List Text} (hfront : front.length = 5)
    (h : line.words = front ++ options) : ∃ handle interface,
      front[2]? = some handle ∧ front[4]? = some interface ∧
      read? line = some ⟨handle.trimEndBy (· = ':'), interface,
        .text .direction "egress" :: optionChanges options⟩ := by
  match front, hfront with
  | [_, _, handle, _, interface], _ =>
    refine ⟨handle, interface, rfl, rfl, ?_⟩
    rw [read?, h]
    rfl

theorem gives_read (handle interface : Text) (options : List Text) (c : OptionChange) :
    Gives ⟨handle, interface, .text .direction "egress" :: optionChanges options⟩ c
      ↔ LastMade options c ∨ Untouched options c.option ∧ c = .text .direction "egress" := by
  have hfirst : LastIn [.text .direction "egress"] c ↔ some (.text .direction "egress") = some c :=
    lastIn_toList (some _) c
  rw [gives_iff, ← lastIn_optionChanges, untouched_iff, ← List.singleton_append, lastIn_append, hfirst,
    Option.some_inj, eq_comm (a := c)]

theorem readFrom_read? {front : List Text} (hfront : front.length = 5) {handle interface : Text}
    (hhandle : front[2]? = some handle) (hinterface : front[4]? = some interface) (options : List Text) :
    ReadFrom (front ++ options) ⟨handle.trimEndBy (· = ':'), interface,
      .text .direction "egress" :: optionChanges options⟩ := by
  have hdrop : (front ++ options).drop 5 = options := by rw [← hfront, List.drop_left]
  have hne : ("ingress" : Text) ≠ "egress" := by decide
  constructor
  · rw [List.getElem?_append_left (by omega), hhandle]
    rfl
  · rw [List.getElem?_append_left (by omega), hinterface]
  · rw [hdrop]
    exact gives_read _ _ options
  · rw [hdrop, gives_read, lastMade_direction_iff]
    simp [hne]
  · rw [hdrop, gives_read, lastMade_direction_iff, OptionChange.option, untouched_direction_iff]
    simp [hne.symm]
  · rw [hdrop]
    intro i w hread hw h
    exact not_readAt_value hread hw h

/-- **The options of a header** of five words or more are those that the last words read give it. A word
that means nothing might as well not be there, and words behind others, unless a value is missing in
front of them, override the options that they set and no others. -/
theorem options_of_words {line : Text} (h : 5 ≤ line.words.length) :
    ∃ header, read? line = some header ∧ ReadFrom line.words header ∧
      (∀ (xs ys : List Text) (w line' : Text), line.words.drop 5 = xs ++ w :: ys → ¬ Pending xs →
        Unknown w → line'.words = line.words.take 5 ++ (xs ++ ys) → read? line' = some header) ∧
      ∀ (xs ys : List Text) (line' : Text), line.words.drop 5 = xs ++ ys → ¬ Pending xs →
        line'.words = line.words.take 5 ++ xs → ∃ header', read? line' = some header' ∧
          header.handle = header'.handle ∧ header.interface = header'.interface ∧
          ∀ c, header.Gives c ↔ LastMade ys c ∨ Untouched ys c.option ∧ header'.Gives c := by
  have hfront : (line.words.take 5).length = 5 := by
    rw [List.length_take]
    omega
  have hwords : line.words = line.words.take 5 ++ line.words.drop 5 := (List.take_append_drop 5 _).symm
  obtain ⟨handle, interface, hhandle, hinterface, hread⟩ := read?_eq hfront hwords
  refine ⟨_, hread, ?_, ?_, ?_⟩
  · have hfrom := readFrom_read? hfront hhandle hinterface (line.words.drop 5)
    rwa [← hwords] at hfrom
  · intro xs ys w line' hsplit hpending hw hline'
    obtain ⟨handle', interface', hhandle', hinterface', hread'⟩ := read?_eq hfront hline'
    obtain rfl := Option.some.inj (hhandle.symm.trans hhandle')
    obtain rfl := Option.some.inj (hinterface.symm.trans hinterface')
    rw [hread', hsplit, optionChanges_append hpending, optionChanges_append hpending,
      optionChanges_unknown hw]
  · intro xs ys line' hsplit hpending hline'
    obtain ⟨handle', interface', hhandle', hinterface', hread'⟩ := read?_eq hfront hline'
    obtain rfl := Option.some.inj (hhandle.symm.trans hhandle')
    obtain rfl := Option.some.inj (hinterface.symm.trans hinterface')
    refine ⟨_, hread', rfl, rfl, fun c => ?_⟩
    rw [gives_iff, gives_iff, hsplit, optionChanges_append hpending, ← List.cons_append, lastIn_append,
      lastIn_optionChanges, untouched_iff]

/-- A header in which words take others back, a value is spelled like a word, and another is missing. -/
def revisedHeader : Text :=
  "qdisc cake 800d: dev eth1 root atm nat bandwidth 5Mbit autorate-ingress noatm nonat bandwidth ingress rtt"

/-- The bandwidth is `ingress`, so traffic does not come in, and the round trip time is missing. -/
theorem options_of_revisedHeader :
    5 ≤ revisedHeader.words.length ∧
      ∃ header, read? revisedHeader = some header ∧ header.handle = "800d" ∧
        LastMade (revisedHeader.words.drop 5) (.text .bandwidth "ingress") ∧
        LastMade (revisedHeader.words.drop 5) (.text .atmMode []) ∧
        LastMade (revisedHeader.words.drop 5) (.switch .nat false) ∧
        ¬ Incoming (revisedHeader.words.drop 5) ∧
        ∀ v, ¬ LastMade (revisedHeader.words.drop 5) (.text .rtt v) := by
  have hwords : 5 ≤ revisedHeader.words.length := by decide +kernel
  obtain ⟨header, hread, hfrom, -⟩ := options_of_words hwords
  have hheader : read? revisedHeader = some ⟨"800d", "eth1",
      [.text .direction "egress", .text .atmMode "atm", .switch .nat true, .text .bandwidth "5Mbit",
        .text .bandwidth "autorate-ingress", .text .atmMode [], .switch .nat false,
        .text .bandwidth "ingress"]⟩ := by decide +kernel
  obtain rfl := Option.some.inj (hheader.symm.trans hread)
  have hlast {c : OptionChange} (hgives : Gives _ c) (hc : c ≠ .text .direction "egress") :
      LastMade (revisedHeader.words.drop 5) c :=
    ((hfrom.gives c).mp hgives).resolve_right fun hfirst => hc hfirst.2
  refine ⟨hwords, _, hread, rfl, hlast rfl (by decide), hlast rfl (by decide), hlast rfl (by decide),
    hfrom.outgoing.mp rfl, fun v hv => ?_⟩
  cases (hfrom.gives _).mpr (.inl hv)

end Header

end CakeMonitor
