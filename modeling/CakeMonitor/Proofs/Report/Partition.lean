import CakeMonitor.Proofs.Report.Compose

/-!
# The one way to cut a report

The lines of a report are cut into blocks in front of each header. That is the only way to cut them into
blocks that are not empty, so that each but the first begins with a header and no other line of a block is one.

* `Text.IsLines`: the lines of a text, with `Text.isLines_iff`.
* `Report.IsPartition`: what makes blocks a partition of some lines.
* `Report.IsPartition.addLine`, `Report.isPartition_group`: one line, then all of them.
* `Report.IsPartition.eq_group`: there is no other partition.
* `Report.blocks_partition`: the blocks of a report.
-/

namespace CakeMonitor

open Text (newline)

/-! ## Lines -/

namespace Text

/-- The lines of a text: with a line feed between each two they are the text, and none has one in it. -/
structure IsLines (t : Text) (ls : List Text) : Prop where
  ne_nil : ls ≠ []
  join_eq : join [newline] ls = t
  oneLine : ∀ l ∈ ls, newline ∉ l

theorem not_mem_of_mem_pieces {sep : CodePoint} : ∀ {t : Text}, ∀ p ∈ pieces sep t, sep ∉ p
  | [], p, hp => by
    obtain rfl := List.mem_singleton.mp hp
    exact List.not_mem_nil
  | c :: t, p, hp => by
    have hrest : ∀ p ∈ pieces sep t, sep ∉ p := not_mem_of_mem_pieces
    obtain ⟨q, qs, hq⟩ := List.exists_cons_of_ne_nil (pieces_ne_nil sep t)
    rw [hq] at hrest
    obtain ⟨hfirst, hothers⟩ := List.forall_mem_cons.mp hrest
    rw [pieces, hq] at hp
    split_ifs at hp with hc
    · have hall : ∀ p ∈ [] :: q :: qs, sep ∉ p := List.forall_mem_cons.mpr ⟨List.not_mem_nil, hrest⟩
      exact hall p hp
    · have hlonger : sep ∉ c :: q := List.not_mem_cons_of_ne_of_not_mem (Ne.symm hc) hfirst
      exact (List.forall_mem_cons.mpr ⟨hlonger, hothers⟩ : ∀ p ∈ (c :: q) :: qs, sep ∉ p) p hp

theorem pieces_join {sep : CodePoint} : ∀ {ls : List Text}, ls ≠ [] → (∀ l ∈ ls, sep ∉ l) →
    pieces sep (join [sep] ls) = ls
  | [l], _, h => pieces_of_not_mem (h l List.mem_cons_self)
  | l :: m :: ls, _, h => by
    obtain ⟨hl, hls⟩ := List.forall_mem_cons.mp h
    show pieces sep (l ++ [sep] ++ join [sep] (m :: ls)) = l :: m :: ls
    rw [List.append_assoc, List.singleton_append, pieces_append_sep hl,
      pieces_join (List.cons_ne_nil m ls) hls]

/-- **A text has no other lines than those it is split into.** -/
theorem isLines_iff {t : Text} {ls : List Text} : IsLines t ls ↔ ls = t.lines := by
  constructor
  · rintro ⟨hne, rfl, honeLine⟩
    exact (pieces_join hne honeLine).symm
  · rintro rfl
    exact ⟨pieces_ne_nil newline t, join_pieces newline t, not_mem_of_mem_pieces⟩

end Text

namespace Report

/-! ## Blocks -/

/-- Some lines in blocks: none is empty, each but the first begins with a line `qdisc …`, and no other line of
a block begins like that. -/
structure IsPartition (lines : List Text) (bs : List (List Text)) : Prop where
  flatten_eq : bs.flatten = lines
  ne_nil : ∀ b ∈ bs, b ≠ []
  begins : ∀ b ∈ bs.tail, ∀ l ∈ b.head?, ("qdisc " : Text) <+: l
  inside : ∀ b ∈ bs, ∀ l ∈ b.tail, ¬ ("qdisc " : Text) <+: l

theorem isHeader_iff {l : Text} : isHeader l = true ↔ ("qdisc " : Text) <+: l := by
  rw [isHeader, Text.hasLabel_iff]
  exact exists_congr fun r => eq_comm

variable {ls : List Text} {bs : List (List Text)}

/-- A line in front of a header is a block of its own, and any other line joins the first block. -/
theorem IsPartition.addLine (h : IsPartition ls bs) (l : Text) : IsPartition (l :: ls) (addLine l bs) := by
  have hflatten : (Report.addLine l bs).flatten = l :: ls := by rw [flatten_addLine, h.flatten_eq]
  cases bs with
  | nil =>
    have hsingle : ∀ b ∈ [[l]], b ≠ [] ∧ b.tail = [] := by simp
    exact ⟨hflatten, fun b hb => (hsingle b hb).1, List.forall_mem_nil _,
      fun b hb => (hsingle b hb).2 ▸ List.forall_mem_nil _⟩
  | cons b bs =>
    obtain ⟨-, hne, hbegins, hinside⟩ := h
    obtain ⟨hb, hbs⟩ := List.forall_mem_cons.mp hne
    obtain ⟨hbody, hbodies⟩ := List.forall_mem_cons.mp hinside
    obtain ⟨m, body, rfl⟩ := List.exists_cons_of_ne_nil hb
    rw [addLine_cons] at hflatten ⊢
    by_cases hm : isHeader m = true
    · rw [if_pos hm] at hflatten ⊢
      have hheader : ∀ l ∈ (m :: body).head?, ("qdisc " : Text) <+: l := by
        simpa using isHeader_iff.mp hm
      exact ⟨hflatten, List.forall_mem_cons.mpr ⟨List.cons_ne_nil l [], hne⟩,
        List.forall_mem_cons.mpr ⟨hheader, hbegins⟩,
        List.forall_mem_cons.mpr ⟨List.forall_mem_nil _, hinside⟩⟩
    · rw [if_neg hm] at hflatten ⊢
      have hjoined : ∀ l ∈ m :: body, ¬ ("qdisc " : Text) <+: l :=
        List.forall_mem_cons.mpr ⟨fun hprefix => hm (isHeader_iff.mpr hprefix), hbody⟩
      exact ⟨hflatten, List.forall_mem_cons.mpr ⟨List.cons_ne_nil l _, hbs⟩, hbegins,
        List.forall_mem_cons.mpr ⟨hjoined, hbodies⟩⟩

/-- **Lines are cut into a partition**, line by line from the last one. -/
theorem isPartition_group : ∀ ls : List Text, IsPartition ls (group ls)
  | [] => ⟨rfl, List.forall_mem_nil _, List.forall_mem_nil _, List.forall_mem_nil _⟩
  | l :: ls => (isPartition_group ls).addLine l

/-- **There is no other partition.** -/
theorem IsPartition.eq_group (h : IsPartition ls bs) : bs = group ls := by
  obtain ⟨rfl, hne, hbegins, hinside⟩ := h
  cases bs with
  | nil => rfl
  | cons b bs =>
    obtain ⟨hb, hbs⟩ := List.forall_mem_cons.mp hne
    obtain ⟨hbody, hbodies⟩ := List.forall_mem_cons.mp hinside
    have hnone {body : List Text} (h : ∀ l ∈ body, ¬ ("qdisc " : Text) <+: l) :
        ∀ l ∈ body, isHeader l = false := fun l hl =>
      Bool.eq_false_iff.mpr fun hheader => h l hl (isHeader_iff.mp hheader)
    -- all blocks but the first are paragraphs, so only the first one remains
    have hparagraphs : ∀ b ∈ bs, IsParagraph b := fun b hb => by
      obtain ⟨m, body, rfl⟩ := List.exists_cons_of_ne_nil (hbs b hb)
      exact .intro (isHeader_iff.mpr (hbegins _ hb m rfl)) (hnone (hbodies _ hb))
    obtain ⟨l, body, rfl⟩ := List.exists_cons_of_ne_nil hb
    have hfirst : ∀ m ∈ body, isHeader m = false := hnone hbody
    have hrest : bs.flatten.foldr Report.addLine [] = bs := group_flatten hparagraphs
    rw [List.flatten_cons, group, List.foldr_append, hrest, foldr_addLine hparagraphs l hfirst]

/-- **The blocks of a report are the one partition of its lines.** The lines are what stands between its line
feeds; the blocks have all of them in their order, and no other blocks cut them at the headers alone. -/
theorem blocks_partition (report : Text) :
    (∀ ls, Text.IsLines report ls ↔ ls = report.lines) ∧
      ∀ bs, IsPartition report.lines bs ↔ bs = blocks report := by
  refine ⟨fun ls => Text.isLines_iff, fun bs => ⟨IsPartition.eq_group, ?_⟩⟩
  rintro rfl
  exact isPartition_group report.lines

/-- Lines in front of the first header, two headers in a row and an empty last line. -/
example : blocks "a\nqdisc b\nqdisc c\n d\n"
    = ([["a"], ["qdisc b"], ["qdisc c", " d", ""]] : List (List String)).map (·.map Text.ofString) := by
  decide

end Report

end CakeMonitor
