import CakeMonitor.Proofs.Report.Printed
import CakeMonitor.Proofs.Report.Setters
import Mathlib.Data.List.Chain
import Mathlib.Data.List.TakeWhile

/-!
# The printed header is read back

A header alternates between words of the program and words of its user: a user's word never stands
behind another. So no parent and no multi-queue can be read into a root header, whatever its words
are, and every option word is read as what it was printed for.

* `Header.Keyed`: such a list of words; `Header.Keyed.isChain` is what it says of neighbours.
* `Header.parentMajor?_eq_none`, `Header.not_includes_multiQueue`: nothing is read into a header that no
  two neighbours in it say.
* `PrintedQueue.read?_header`: handle, interface and options are read back.
-/

namespace CakeMonitor

open Text (space colon spread IsWord Apart)

namespace Header

/-! ## Words of the program among words of its user -/

/-- The words that say where a queue is. -/
def placeWords : List Text := ["cake", "dev", "root", "refcnt", "2"]

/-- The words of the program in a root header, behind the first. -/
def fixedWords : List Text :=
  placeWords ++ arguments.map (·.1) ++ diffservModes ++ flowModes ++ flags.map (·.1)

/-- Words each of which is the program's or stands behind one of the program's. -/
inductive Keyed : List Text → Prop
  | nil : Keyed []
  | word {w : Text} {ws : List Text} (hw : w ∈ fixedWords) (h : Keyed ws) : Keyed (w :: ws)
  | pair {w : Text} (v : Text) {ws : List Text} (hw : w ∈ fixedWords) (h : Keyed ws) :
      Keyed (w :: v :: ws)

theorem Keyed.append {vs ws : List Text} (hv : Keyed vs) (hw : Keyed ws) : Keyed (vs ++ ws) := by
  induction hv with
  | nil => exact hw
  | word h _ ih => exact .word h ih
  | pair v h _ ih => exact .pair v h ih

theorem Keyed.flatten {groups : List (List Text)} (h : ∀ g ∈ groups, Keyed g) :
    Keyed groups.flatten := by
  induction groups with
  | nil => exact .nil
  | cons g gs ih =>
    exact (h g List.mem_cons_self).append (ih fun k hk => h k (List.mem_cons_of_mem g hk))

theorem Keyed.head_fixed {ws : List Text} (h : Keyed ws) : ∀ w ∈ ws.head?, w ∈ fixedWords := by
  intro w hw
  cases h with
  | nil => cases hw
  | word hfixed _ => exact Option.some.inj hw ▸ hfixed
  | pair _ hfixed _ => exact Option.some.inj hw ▸ hfixed

/-- **Of two neighbours one is the program's**, so they are related if each of the program's words is to
whatever stands next to it. -/
theorem Keyed.isChain {R : Text → Text → Prop} (hfront : ∀ w ∈ fixedWords, ∀ v, R w v)
    (hback : ∀ w ∈ fixedWords, ∀ v, R v w) {ws : List Text} (h : Keyed ws) : ws.IsChain R := by
  induction h with
  | nil => exact .nil
  | word hw _ ih => exact List.isChain_cons.mpr ⟨fun v _ => hfront _ hw v, ih⟩
  | pair v hw hws ih =>
    exact .cons_cons (hfront _ hw v) <| List.isChain_cons.mpr
      ⟨fun x hx => hback x (hws.head_fixed x hx) v, ih⟩

/-! ## What the words of the program are not -/

theorem not_endsIn_of_fixed :
    ∀ w ∈ fixedWords, Text.beforeSuffix? "parent" w = none ∧
      Text.beforeSuffix? "qdisc" w = none ∧ colon ∉ w ∧ w ≠ "cake_mq" := by decide

theorem ne_append_of_beforeSuffix?_eq_none {s w : Text} (h : Text.beforeSuffix? s w = none) (z : Text) :
    w ≠ z ++ s := by
  intro e
  rw [Text.beforeSuffix?_eq_some_iff.mpr e] at h
  exact absurd h (by simp)

/-! ## Parents -/

theorem parentAt?_eq_some {t major : Text} (h : parentAt? t = some major) :
    ∃ b, t = ("parent" : Text) ++ space :: (major ++ colon :: b) ∧ IsWord major := by
  simp only [parentAt?, Option.bind_eq_bind, Option.bind_eq_some_iff] at h
  obtain ⟨rest, hrest, h⟩ := h
  split_ifs at h with hm
  obtain rfl := Option.some.inj h
  set major := rest.takeWhile fun c : CodePoint => c ≠ ':' && !c.isBlank with hmajor
  obtain ⟨hne, hcolon⟩ := hm
  obtain ⟨b, hb⟩ : ∃ b, rest.drop major.length = colon :: b := by
    cases hd : rest.drop major.length with
    | nil => rw [hd] at hcolon; simp at hcolon
    | cons c b => rw [hd] at hcolon; exact ⟨b, by simpa using hcolon⟩
  have hsplit : rest = major ++ colon :: b := by
    rw [← hb, ← List.take_append_drop major.length rest]
    congr 1
    · exact (List.prefix_iff_eq_take.mp (List.takeWhile_prefix _)).symm
    · rw [List.take_append_drop]
  refine ⟨b, ?_, hne, fun c hc => ?_⟩
  · rw [Text.afterLabel?_eq_some_iff.mp hrest, hsplit]
    rfl
  · have := List.mem_takeWhile_imp hc
    simpa using (Bool.and_eq_true_iff.mp this).2

theorem parentFrom?_eq_some : ∀ {inside : Bool} {t major : Text},
    parentFrom? inside t = some major →
      ∃ a b, t = a ++ (("parent" : Text) ++ space :: (major ++ colon :: b)) ∧ IsWord major
  | _, [], _, h => by simp [parentFrom?] at h
  | inside, c :: t, major, h => by
    rw [parentFrom?] at h
    split at h
    · rename_i m hm
      obtain rfl := Option.some.inj h
      cases inside with
      | true => simp at hm
      | false =>
        obtain ⟨b, hb, hw⟩ := parentAt?_eq_some (by simpa using hm)
        exact ⟨[], b, by rw [hb]; rfl, hw⟩
    · obtain ⟨a, b, rfl, hw⟩ := parentFrom?_eq_some h
      exact ⟨c :: a, b, rfl, hw⟩

/-- The neighbours of a blank in a text are neighbours among its words. -/
theorem adjacent_of_blank {x y : Text} (hx : IsWord x) (hy : IsWord y) (a b : Text) :
    ∃ us u v vs, Text.words (a ++ (x ++ space :: (y ++ b))) = us ++ (u ++ x) :: (y ++ v) :: vs := by
  obtain ⟨us, u, hu⟩ := Text.words_append_solid hx a
  obtain ⟨v, vs, hv⟩ := Text.words_solid_append hy b
  refine ⟨us, u, v, vs, ?_⟩
  rw [← List.append_assoc, Text.words_append_blank Text.isBlank_space, hu, hv]
  simp

/-- Neighbours that do not name a parent. -/
def NoParent (u v : Text) : Prop := Text.beforeSuffix? "parent" u = none ∨ colon ∉ v

instance (u v : Text) : Decidable (NoParent u v) :=
  inferInstanceAs (Decidable (Text.beforeSuffix? "parent" u = none ∨ colon ∉ v))

theorem Keyed.noParent {ws : List Text} (h : Keyed ws) : ws.IsChain NoParent :=
  h.isChain (fun w hw _ => Or.inl (not_endsIn_of_fixed w hw).1)
    fun w hw _ => Or.inr (not_endsIn_of_fixed w hw).2.2.1

/-- What stands behind the word `parent` in a name of a parent is a word with a colon. -/
theorem isWord_major {major : Text} (h : IsWord major) : IsWord (major ++ [colon]) :=
  ⟨by simp, List.forall_mem_append.mpr ⟨h.solid, by decide⟩⟩

/-- A header names no parent if no two of its words do. -/
theorem parentMajor?_eq_none {header : Text} (h : header.words.IsChain NoParent) :
    parentMajor? header = none := by
  rw [Option.eq_none_iff_forall_ne_some]
  intro major hm
  obtain ⟨a, b, hab, hmajor⟩ := parentFrom?_eq_some hm
  obtain ⟨us, u, v, vs, hadj⟩ :=
    adjacent_of_blank (x := "parent") (by decide) (isWord_major hmajor) a b
  rw [show a ++ (("parent" : Text) ++ space :: ((major ++ [colon]) ++ b)) = header by
    rw [hab]; simp] at hadj
  rw [hadj] at h
  rcases (List.isChain_append.mp h).2.1.rel with hnone | hnone
  · exact ne_append_of_beforeSuffix?_eq_none hnone u rfl
  · exact hnone (by simp)

/-! ## Multi-queues -/

/-- Neighbours that do not announce a multi-queue. -/
def NoMultiQueue (u v : Text) : Prop := Text.beforeSuffix? "qdisc" u = none ∨ v ≠ "cake_mq"

instance (u v : Text) : Decidable (NoMultiQueue u v) :=
  inferInstanceAs (Decidable (Text.beforeSuffix? "qdisc" u = none ∨ v ≠ "cake_mq"))

/-- A header names no multi-queue if no two of its words do. -/
theorem not_includes_multiQueue {header : Text} (h : header.words.IsChain NoMultiQueue) :
    Text.includes "qdisc cake_mq " header = false := by
  rw [← Bool.not_eq_true, Text.includes_iff]
  rintro ⟨a, b, hab⟩
  have hmq : header = (a ++ ("qdisc" : Text)) ++ space :: (("cake_mq" : Text) ++ space :: b) := by
    rw [hab]
    simp only [List.append_assoc]
    rfl
  obtain ⟨us, u, hu⟩ := Text.words_append_solid (x := "qdisc") (by decide) a
  rw [hmq, Text.words_append_blank Text.isBlank_space, hu,
    Text.words_append_blank Text.isBlank_space, IsWord.words_eq (by decide : IsWord "cake_mq"),
    List.append_assoc, List.singleton_append, List.singleton_append] at h
  rcases (List.isChain_append.mp h).2.1.rel with hnone | hnone
  · exact ne_append_of_beforeSuffix?_eq_none hnone u rfl
  · exact hnone rfl

theorem Keyed.noMultiQueue {ws : List Text} (h : Keyed ws) : ws.IsChain NoMultiQueue :=
  h.isChain (fun w hw _ => Or.inl (not_endsIn_of_fixed w hw).2.1)
    fun w hw _ => Or.inr (not_endsIn_of_fixed w hw).2.2.2

/-! ## Option words -/

/-- What option words say, whatever stands behind them. -/
def Says (ws : List Text) (changes : List OptionChange) : Prop :=
  ∀ rest, optionChanges (ws ++ rest) = changes ++ optionChanges rest

theorem says_nil : Says [] [] := fun _ => rfl

theorem Says.append {vs ws : List Text} {cs ds : List OptionChange} (hv : Says vs cs)
    (hw : Says ws ds) : Says (vs ++ ws) (cs ++ ds) := by
  intro rest
  rw [List.append_assoc, hv, hw, List.append_assoc]

theorem says_keyword {w : Text} {c : OptionChange} (ha : argument? w = none)
    (hk : keyword? w = some c) : Says [w] [c] := by
  intro rest
  rw [List.singleton_append, optionChanges, ha, hk]
  rfl

theorem says_argument {w v : Text} {o : TextOption} (ha : argument? w = some o) :
    Says [w, v] [.text o v] := by
  intro rest
  rw [List.cons_append, List.singleton_append, optionChanges, ha]
  rfl

theorem says_flatten {gs : List (List Text)} {cs : List (List OptionChange)}
    (h : List.Forall₂ Says gs cs) : Says gs.flatten cs.flatten := by
  induction h with
  | nil => exact says_nil
  | cons hg _ ih => exact hg.append ih

theorem optionChanges_of_says {ws : List Text} {cs : List OptionChange} (h : Says ws cs) :
    optionChanges ws = cs := by
  have := h []
  rwa [List.append_nil, optionChanges, List.append_nil] at this

theorem argument?_diffservMode : ∀ m ∈ diffservModes, argument? m = none := by decide

theorem argument?_flowMode : ∀ m ∈ flowModes, argument? m = none ∧ m ∉ diffservModes := by decide

theorem says_diffservMode {m : Text} (h : m ∈ diffservModes) :
    Says [m] [.text .diffservMode m] :=
  says_keyword (argument?_diffservMode m h) (by rw [keyword?, if_pos h])

theorem says_flowMode {m : Text} (h : m ∈ flowModes) : Says [m] [.text .flowMode m] :=
  have hm := argument?_flowMode m h
  says_keyword hm.1 (by rw [keyword?, if_neg hm.2, if_pos h])

end Header

namespace PrintedQueue

open Header (Keyed Says fixedWords)
open Options (change)

/-! ## The words of the printed header -/

theorem isWord_of_fixed : ∀ w ∈ fixedWords, IsWord w := by decide

theorem keyed_of_fixed {ws : List Text} (h : ∀ w ∈ ws, w ∈ fixedWords) : Keyed ws := by
  induction ws with
  | nil => exact .nil
  | cons w ws ih =>
    exact .word (h w List.mem_cons_self) (ih fun v hv => h v (List.mem_cons_of_mem w hv))

/-- A group of words in a header: the program's among its user's, and none with a blank. -/
structure Group (ws : List Text) : Prop where
  keyed : Keyed ws
  isWord : ∀ w ∈ ws, IsWord w

theorem Group.of_fixed {ws : List Text} (h : ∀ w ∈ ws, w ∈ fixedWords) : Group ws :=
  ⟨keyed_of_fixed h, fun w hw => isWord_of_fixed w (h w hw)⟩

theorem Group.argument {word : Text} (h : word ∈ fixedWords) (v : Option Token) :
    Group (argument word v) := by
  cases v with
  | none => exact ⟨.nil, by simp [PrintedQueue.argument]⟩
  | some v =>
    refine ⟨.pair v.text h .nil, ?_⟩
    simp only [PrintedQueue.argument, Option.map_some, Option.getD_some, List.forall_mem_cons]
    exact ⟨isWord_of_fixed _ h, v.isWord, by simp⟩

theorem mem_fixedWords_diffserv : ∀ m ∈ Header.diffservModes, m ∈ fixedWords := by decide

theorem mem_fixedWords_flow : ∀ m ∈ Header.flowModes, m ∈ fixedWords := by decide

variable (q : PrintedQueue)

theorem group_of_mem_optionGroups : ∀ g ∈ q.optionGroups, Group g := by
  have hdiffserv : Group (q.diffserv.map (·.val)).toList := Group.of_fixed <| by
    cases q.diffserv with
    | none => simp
    | some m => simpa using mem_fixedWords_diffserv m m.property
  have hflow : Group (q.flow.map (·.val)).toList := Group.of_fixed <| by
    cases q.flow with
    | none => simp
    | some m => simpa using mem_fixedWords_flow m m.property
  have hnat : Group [if q.nat then "nat" else "nonat"] := Group.of_fixed <| by
    cases q.nat <;> decide
  have hwash : Group [if q.wash then "wash" else "nowash"] := Group.of_fixed <| by
    cases q.wash <;> decide
  have hingress : Group (if q.ingress then ["ingress"] else []) := Group.of_fixed <| by
    cases q.ingress <;> decide
  have hframing : Group (q.framing.map Framing.word).toList := Group.of_fixed <| by
    cases q.framing with
    | none => simp
    | some f => cases f <;> decide
  simp only [optionGroups, List.forall_mem_cons]
  exact ⟨.argument (by decide) _, hdiffserv, hflow, hnat, hwash, hingress, .argument (by decide) _,
    hframing, .argument (by decide) _, .argument (by decide) _, .argument (by decide) _,
    .argument (by decide) _, by simp⟩

/-- The words of the header behind the first two. -/
def headerRest : List Text :=
  (q.handle.text ++ (":" : Text)) :: "dev" :: q.interface.text :: "root" :: "refcnt" :: "2"
    :: q.optionGroups.flatten

theorem keyed_headerRest : Keyed ("cake" :: q.headerRest) :=
  .pair _ (by decide) <| .pair _ (by decide) <| .word (by decide) <| .word (by decide) <|
    .word (by decide) <| .flatten fun g hg => (q.group_of_mem_optionGroups g hg).keyed

theorem isWord_options : ∀ w ∈ q.optionGroups.flatten, IsWord w := by
  intro w hw
  obtain ⟨g, hg, hw⟩ := List.mem_flatten.mp hw
  exact (q.group_of_mem_optionGroups g hg).isWord w hw

theorem isWord_headerWords : ∀ w ∈ q.headerWords, IsWord w := by
  have hhandle : IsWord (q.handle.text ++ (":" : Text)) :=
    ⟨by simp [q.handle.isWord.ne_nil],
      List.forall_mem_append.mpr ⟨q.handle.isWord.solid, by decide⟩⟩
  simp only [headerWords, List.forall_mem_cons]
  exact ⟨by decide, by decide, hhandle, by decide, q.interface.isWord, by decide, by decide,
    by decide, q.isWord_options⟩

/-- The header laid out from its words. -/
theorem header_eq_spread :
    q.header = spread ((0, "qdisc") :: (q.headerWords.tail.map fun w => (1, w))) :=
  Text.join_eq_spread _ _

theorem apart_headerWords : Apart (q.headerWords.tail.map fun w => (1, w)) :=
  Text.apart_single fun w hw => q.isWord_headerWords w (List.mem_of_mem_tail hw)

theorem isBlank_of_mem_space : ∀ c ∈ [space], c.isBlank = true := by decide

theorem words_header : (q.header ++ [space]).words = q.headerWords := by
  rw [Text.words_append_blanks isBlank_of_mem_space, header_eq_spread,
    Text.words_spread (by decide) q.apart_headerWords, Text.map_snd_single]
  rfl

theorem trim_header : (q.header ++ [space]).trim = q.header := by
  rw [header_eq_spread, Text.trim_spread (by decide) q.apart_headerWords isBlank_of_mem_space]
  rfl

/-! ## What is read from it -/

/-- What the option words set, group by group. -/
def changeGroups : List (List OptionChange) :=
  [change .bandwidth (q.bandwidth.map (·.text)), change .diffservMode (q.diffserv.map (·.val)),
   change .flowMode (q.flow.map (·.val)), [.switch .nat q.nat], [.switch .wash q.wash],
   change .direction (if q.ingress then some "ingress" else none),
   change .rtt (q.rtt.map (·.text)), change .atmMode (q.framing.map Framing.mode),
   change .overhead (q.overhead.map (·.text)), change .mpu (q.mpu.map (·.text)),
   change .memlimit (q.memlimit.map (·.text)), change .fwmarkMask (q.fwmark.map (·.text))]

theorem says_argument {word : Text} {o : TextOption} (h : Header.argument? word = some o)
    (v : Option Token) : Says (argument word v) (change o (v.map (·.text))) := by
  cases v with
  | none => exact Header.says_nil
  | some v => exact Header.says_argument h

theorem says_optionGroups : List.Forall₂ Says q.optionGroups q.changeGroups := by
  have hdiffserv : Says (q.diffserv.map (·.val)).toList
      (change .diffservMode (q.diffserv.map (·.val))) := by
    cases q.diffserv with
    | none => exact Header.says_nil
    | some m => exact Header.says_diffservMode m.property
  have hflow : Says (q.flow.map (·.val)).toList (change .flowMode (q.flow.map (·.val))) := by
    cases q.flow with
    | none => exact Header.says_nil
    | some m => exact Header.says_flowMode m.property
  have hnat : Says [if q.nat then "nat" else "nonat"] [.switch .nat q.nat] := by
    cases q.nat <;> exact Header.says_keyword (by decide) (by decide)
  have hwash : Says [if q.wash then "wash" else "nowash"] [.switch .wash q.wash] := by
    cases q.wash <;> exact Header.says_keyword (by decide) (by decide)
  have hingress : Says (if q.ingress then ["ingress"] else [])
      (change .direction (if q.ingress then some "ingress" else none)) := by
    cases q.ingress with
    | false => exact Header.says_nil
    | true => exact Header.says_keyword (by decide) (by decide)
  have hframing : Says (q.framing.map Framing.word).toList
      (change .atmMode (q.framing.map Framing.mode)) := by
    cases q.framing with
    | none => exact Header.says_nil
    | some f => cases f <;> exact Header.says_keyword (by decide) (by decide)
  exact .cons (says_argument (by decide) _) <| .cons hdiffserv <| .cons hflow <| .cons hnat <|
    .cons hwash <| .cons hingress <| .cons (says_argument (by decide) _) <| .cons hframing <|
    .cons (says_argument (by decide) _) <| .cons (says_argument (by decide) _) <|
    .cons (says_argument (by decide) _) <| .cons (says_argument (by decide) _) .nil

/-- The options that the header sets are those it was printed from. -/
theorem setAll_changeGroups :
    ({} : Options).setAll (.text .direction "egress" :: q.changeGroups.flatten) = q.options := by
  have h : OptionChange.text .direction "egress" :: q.changeGroups.flatten
      = change .direction (some "egress") ++ q.changeGroups.flatten := rfl
  rw [h]
  refine Options.eq_of_text_isOn (fun k => ?_) fun k => ?_
  · have hdirection : (if q.ingress = true then some ("ingress" : Text) else none).getD "egress"
        = q.options.direction := by
      unfold options
      cases q.ingress <;> rfl
    simp only [changeGroups, List.flatten_cons, List.flatten_nil, Options.setAll_append,
      Options.setAll_nil, Options.text_setAll_change, Options.text_setAll_switch]
    cases k with
    | direction => exact hdirection
    | _ => rfl
  · simp only [changeGroups, List.flatten_cons, List.flatten_nil, Options.setAll_append,
      Options.setAll_nil, Options.isOn_setAll_change, Options.isOn_setAll_switch]
    cases k <;> rfl

/-- The colon behind the handle is dropped, and nothing of the handle. -/
theorem trimEndBy_handle :
    (q.handle.text ++ (":" : Text)).trimEndBy (· = colon) = q.handle.text := by
  refine Text.trimEndBy_append (by decide) fun c hc => ?_
  rw [List.getLast?_eq_some_getLast q.handle.isWord.ne_nil, Option.mem_some_iff] at hc
  rw [← hc]
  exact decide_eq_false q.noColon

/-- **The header is read back.** -/
theorem read?_header : Header.read? (q.header ++ [space])
    = some ⟨q.handle.text, q.interface.text,
        .text .direction "egress" :: q.changeGroups.flatten⟩ := by
  have hoptions : Header.optionChanges ("root" :: "refcnt" :: "2" :: q.optionGroups.flatten)
      = q.changeGroups.flatten :=
    Header.optionChanges_of_says (Header.says_flatten q.says_optionGroups)
  rw [Header.read?, words_header]
  simp only [headerWords, trimEndBy_handle, hoptions]

theorem attachment?_header : Block.attachment? (q.header ++ [space]) = some .root := by
  have hwords : (q.header ++ [space]).words = ("qdisc" : Text) :: ("cake" : Text) :: q.headerRest :=
    q.words_header
  have hcake : Text.includes "qdisc cake " (q.header ++ [space]) = true :=
    Text.includes_iff.mpr ⟨[], Text.join [space] q.headerRest ++ [space], rfl⟩
  have hmq : Text.includes "qdisc cake_mq " (q.header ++ [space]) = false := by
    refine Header.not_includes_multiQueue ?_
    rw [hwords]
    exact .cons_cons (by decide) q.keyed_headerRest.noMultiQueue
  have hparent : Header.parentMajor? (q.header ++ [space]) = none := by
    refine Header.parentMajor?_eq_none ?_
    rw [hwords]
    exact .cons_cons (by decide) q.keyed_headerRest.noParent
  rw [Block.attachment?, hmq, hcake, hparent]
  rfl

end PrintedQueue

end CakeMonitor
