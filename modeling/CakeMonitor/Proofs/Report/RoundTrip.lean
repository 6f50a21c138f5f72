import CakeMonitor.Proofs.Report.PrintedTable

/-!
# Printed reports are read back

The report of any queues, CAKE queues at the root of a device among queues of other disciplines, is
read back as the snapshots of the CAKE queues in their order.

* `Report.group_flatten`: lines fall into the blocks they were printed in.
* `ReportEntry.read?_lines`: the snapshot of each block.
* `MultiQueue.mergeRest_roots`: queues at the root of a device stay as they are.
* `Report.snapshots_print`: the round trip.
-/

namespace CakeMonitor

open Text (space newline spread IsWord Apart)

/-! ## Blocks -/

namespace Report

/-- A header line and lines behind it that are no headers. -/
inductive IsParagraph : List Text → Prop
  | intro {header : Text} {body : List Text} (begins : isHeader header = true)
      (inside : ∀ l ∈ body, isHeader l = false) : IsParagraph (header :: body)

/-- Lines that are no headers join the line in front of them. -/
theorem foldr_addLine {bs : List (List Text)} (hbs : ∀ b ∈ bs, IsParagraph b) :
    ∀ (l : Text) {body : List Text}, (∀ m ∈ body, isHeader m = false) →
      (l :: body).foldr addLine bs = (l :: body) :: bs
  | l, [], _ => by
    cases bs with
    | nil => rfl
    | cons b bs =>
      obtain ⟨begins, -⟩ := hbs b List.mem_cons_self
      simp [addLine, begins]
  | l, m :: body, h => by
    obtain ⟨hm, hbody⟩ := List.forall_mem_cons.mp h
    rw [List.foldr_cons, foldr_addLine hbs m hbody, addLine]
    simp [hm]

/-- **Lines fall into the blocks they were printed in.** -/
theorem group_flatten {bs : List (List Text)} (h : ∀ b ∈ bs, IsParagraph b) :
    group bs.flatten = bs := by
  induction bs with
  | nil => rfl
  | cons b bs ih =>
    obtain ⟨hb, hbs⟩ := List.forall_mem_cons.mp h
    cases hb with
    | intro _ inside =>
      have hrest : bs.flatten.foldr addLine [] = bs := ih hbs
      rw [List.flatten_cons, group, List.foldr_append, hrest, foldr_addLine hbs _ inside]

theorem IsParagraph.append_blank {b : List Text} (h : IsParagraph b) : IsParagraph (b ++ [[]]) := by
  cases h with
  | intro begins inside =>
    exact .intro begins (List.forall_mem_append.mpr ⟨inside, by decide⟩)

end Report

/-! ## The lines of a queue -/

/-- A line of words each behind a space, with another space at its end or without. -/
def IsLaidOut (l : Text) : Prop := ∃ cells b, Apart cells ∧ b ∈ ([[], [space]] : List Text) ∧
  l = spread cells ++ b

namespace IsLaidOut

theorem of_apart {cells : List (Nat × Text)} (h : Apart cells) : IsLaidOut (spread cells) :=
  ⟨cells, [], h, by simp, by simp⟩

theorem not_isHeader {l : Text} (h : IsLaidOut l) : Report.isHeader l = false := by
  obtain ⟨cells, b, hcells, hb, rfl⟩ := h
  match cells, hcells with
  | [], _ => exact (by decide : ∀ b ∈ ([[], [space]] : List Text), Report.isHeader b = false) b hb
  | (0, w) :: cells, hcells => exact absurd (hcells _ List.mem_cons_self).1 (Nat.lt_irrefl 0)
  | (n + 1, w) :: cells, _ => rfl

theorem newline_not_mem {l : Text} (h : IsLaidOut l) : newline ∉ l := by
  obtain ⟨cells, b, hcells, hb, rfl⟩ := h
  rw [List.mem_append, not_or]
  exact ⟨Text.newline_not_mem_spread fun cell hc => (hcells cell hc).2,
    (by decide : ∀ b ∈ ([[], [space]] : List Text), newline ∉ b) b hb⟩

end IsLaidOut

namespace PrintedQueue

theorem isLaidOut_indented {ws : List Text} (h : ∀ w ∈ ws, IsWord w) : IsLaidOut (indented ws) :=
  .of_apart (Text.apart_single h)

theorem isLaidOut_boundsLine {label : List Text} (h : ∀ w ∈ label, IsWord w) (width : Nat)
    (low high : Token) : IsLaidOut (boundsLine label width low high) := by
  rw [boundsLine, indented, ← Text.spread_append]
  exact .of_apart <| (Text.apart_single h).append <| .cons (gap_pos _ _) low.isWord <|
    .cons Nat.one_pos (by decide) <| .cons (gap_pos _ _) high.isWord Text.apart_nil

theorem isLaidOut_row {key : Text} (hkey : IsWord key) {values : List Text}
    (hwords : ∀ v ∈ values, IsWord v) : IsLaidOut (row key values) := by
  refine .of_apart (.cons Nat.two_pos hkey (apart_columns _ fun c hc w hw => ?_))
  obtain ⟨v, hv, rfl⟩ := List.mem_map.mp hc
  rw [List.mem_singleton.mp hw]
  exact hwords v hv

variable (q : PrintedQueue)

theorem isLaidOut_table : ∀ l ∈ q.table, IsLaidOut l := by
  rw [table]
  split_ifs with hq
  · simp
  · simp only [List.cons_append, List.forall_mem_cons, List.forall_mem_append, List.forall_mem_map]
    refine ⟨⟨[], [], Text.apart_nil, by simp, rfl⟩, .of_apart (apart_columns 10 ?_), ?_,
      ⟨[], [], Text.apart_nil, by simp, rfl⟩, by simp⟩
    · exact List.forall_mem_map.mpr fun p _ => p.name.isWord_words
    · intro r hr
      obtain ⟨hkey, -, -, hwords⟩ := q.rows_spec hq r hr
      exact isLaidOut_row hkey hwords

theorem isLaidOut_body : ∀ l ∈ q.body, IsLaidOut l := by
  rw [body]
  refine List.forall_mem_append.mpr ⟨?_, q.isLaidOut_table⟩
  simp only [List.forall_mem_cons]
  refine ⟨?_, ?_, ?_, ?_, ?_, ?_, ?_, by simp⟩
  · exact ⟨_, [space], Text.apart_single (List.forall_mem_cons.mpr ⟨by decide, q.isWord_sentWords⟩),
      by simp, rfl⟩
  · refine isLaidOut_indented ?_
    simp only [List.forall_mem_cons]
    exact ⟨by decide, q.backlogBytes.isWord, isWord_count_append _ (by decide), by decide,
      isWord_count _, by simp⟩
  · refine isLaidOut_indented ?_
    simp only [List.forall_mem_cons]
    exact ⟨by decide, by decide, q.memoryUsed.isWord, by decide, q.memoryTotal.isWord, by simp⟩
  · refine isLaidOut_indented ?_
    simp only [List.forall_mem_cons]
    exact ⟨by decide, by decide, q.capacity.isWord, by simp⟩
  · exact isLaidOut_boundsLine (by decide) 12 q.minNet q.maxNet
  · exact isLaidOut_boundsLine (by decide) 8 q.minAdjusted q.maxAdjusted
  · rw [offsetLine, indented, ← Text.spread_append]
    exact .of_apart <| (Text.apart_single (by decide)).append <|
      .cons (gap_pos _ _) q.headerOffset.isWord Text.apart_nil

theorem isParagraph_lines : Report.IsParagraph q.lines :=
  .intro rfl fun l hl => (q.isLaidOut_body l hl).not_isHeader

theorem newline_not_mem_lines : ∀ l ∈ q.lines, newline ∉ l := by
  refine List.forall_mem_cons.mpr ⟨?_, fun l hl => (q.isLaidOut_body l hl).newline_not_mem⟩
  have hheader : newline ∉ q.header := by
    rw [header_eq_spread]
    exact Text.newline_not_mem_spread <| List.forall_mem_cons.mpr
      ⟨by decide, fun cell hc => (q.apart_headerWords cell hc).2⟩
  rw [List.mem_append, not_or]
  exact ⟨hheader, by decide⟩

end PrintedQueue

namespace ReportEntry

theorem isParagraph_lines : ∀ e : ReportEntry, Report.IsParagraph e.lines
  | cake q => q.isParagraph_lines
  | other o => .intro o.begins o.inside

theorem newline_not_mem_lines : ∀ e : ReportEntry, ∀ l ∈ e.lines, newline ∉ l
  | cake q => q.newline_not_mem_lines
  | other o => o.oneLine

/-- The block that says the same; other queues have none. -/
def block? (t : Timestamp) (e : ReportEntry) : Option Block :=
  (e.snapshot? t).map fun snapshot => { snapshot }

/-- **The lines of a queue are read back**, with empty lines behind them or without. -/
theorem read?_lines (t : Timestamp) (n : Nat) :
    ∀ e : ReportEntry, Block.read? t (e.lines ++ List.replicate n []) = .ok (e.block? t)
  | cake q => by
    have hhead : (q.lines ++ List.replicate n []).headD [] = q.header ++ [space] := rfl
    rw [lines, Block.read?, hhead, q.attachment?_header]
    simp only []
    rw [q.readLines_lines t n]
    rfl
  | other o => by
    have hplace : Block.attachment? o.header = none := by
      rw [Block.attachment?, o.noMultiQueue, o.noQueue]
      rfl
    rw [lines, Block.read?, List.cons_append, List.headD_cons, hplace]
    rfl

end ReportEntry

/-! ## Reports -/

namespace MultiQueue

/-- Queues at the root of a device stay as they are. -/
theorem mergeRest_roots (blocks earlier : List Block) :
    ∀ {rest : List Block}, (∀ b ∈ rest, b.attachment = .root) →
      mergeRest blocks earlier rest = .ok (rest.map (·.snapshot))
  | [], _ => rfl
  | b :: rest, h => by
    obtain ⟨hb, hrest⟩ := List.forall_mem_cons.mp h
    have hparent : parentKey? b = none := by rw [parentKey?, hb]
    have hchild : childKey? b = none := by rw [childKey?, hb]
    rw [mergeRest, mergeRest_roots blocks (earlier ++ [b]) hrest, hparent, isAbsorbed, hchild]
    rfl

end MultiQueue

namespace Report

/-- The blocks that a report falls into: the last line feed leaves an empty line behind the last. -/
def printedBlocks : List ReportEntry → List (List Text)
  | [] => [[[]]]
  | [e] => [e.lines ++ [[]]]
  | e :: e' :: es => e.lines :: printedBlocks (e' :: es)

theorem isParagraph_printedBlocks : ∀ {entries : List ReportEntry}, entries ≠ [] →
    ∀ b ∈ printedBlocks entries, IsParagraph b
  | [e], _ => List.forall_mem_singleton.mpr e.isParagraph_lines.append_blank
  | e :: e' :: es, _ => List.forall_mem_cons.mpr
      ⟨e.isParagraph_lines, isParagraph_printedBlocks (List.cons_ne_nil e' es)⟩

theorem flatten_printedBlocks : ∀ entries : List ReportEntry,
    (printedBlocks entries).flatten = entries.flatMap ReportEntry.lines ++ [[]]
  | [] => rfl
  | [e] => by simp [printedBlocks]
  | e :: e' :: es => by
    rw [printedBlocks, List.flatten_cons, flatten_printedBlocks (e' :: es), List.flatMap_cons,
      List.append_assoc]
    simp

theorem blocks_print (entries : List ReportEntry) :
    blocks (print entries) = printedBlocks entries := by
  have hlines : (print entries).lines = (printedBlocks entries).flatten := by
    rw [print, flatten_printedBlocks, Text.lines_unlines]
    intro l hl
    obtain ⟨e, -, hl⟩ := List.mem_flatMap.mp hl
    exact e.newline_not_mem_lines l hl
  rw [blocks, hlines]
  cases entries with
  | nil => rfl
  | cons e es => exact group_flatten (isParagraph_printedBlocks (List.cons_ne_nil e es))

/-- Each block is read as the queue that was printed in it. -/
theorem mapM_printedBlocks (t : Timestamp) : ∀ {entries : List ReportEntry}, entries ≠ [] →
    (printedBlocks entries).mapM (Block.read? t) = .ok (entries.map (·.block? t))
  | [e], _ => by
    have hread : Block.read? t (e.lines ++ [[]]) = .ok (e.block? t) := e.read?_lines t 1
    rw [printedBlocks, List.mapM_cons, hread]
    rfl
  | e :: e' :: es, _ => by
    have hread := e.read?_lines t 0
    rw [List.replicate_zero, List.append_nil] at hread
    rw [printedBlocks, List.mapM_cons, hread, mapM_printedBlocks t (List.cons_ne_nil e' es)]
    rfl

/-- The CAKE queues of a printed report. -/
theorem cakeBlocks_print (t : Timestamp) (entries : List ReportEntry) :
    cakeBlocks t (print entries) = .ok (entries.filterMap (·.block? t)) := by
  rw [cakeBlocks, blocks_print]
  cases entries with
  | nil => rfl
  | cons e es =>
    rw [mapM_printedBlocks t (List.cons_ne_nil e es), Except.map, List.filterMap_map]
    rfl

/-- **Printed reports are read back**: the CAKE queues among all queues, in their order. -/
theorem snapshots_print (t : Timestamp) (entries : List ReportEntry) :
    snapshots t (print entries) = .ok (entries.filterMap (·.snapshot? t)) := by
  have hroot : ∀ b ∈ entries.filterMap (·.block? t), b.attachment = .root := by
    intro b hb
    obtain ⟨e, -, he⟩ := List.mem_filterMap.mp hb
    obtain ⟨s, -, rfl⟩ := Option.map_eq_some_iff.mp he
    rfl
  have hsnapshot : (entries.filterMap (·.block? t)).map (·.snapshot)
      = entries.filterMap (·.snapshot? t) := by
    have hentry : ∀ e : ReportEntry, (e.block? t).map (·.snapshot) = e.snapshot? t
      | .cake _ => rfl
      | .other _ => rfl
    rw [List.map_filterMap]
    simp only [hentry]
  rw [snapshots, cakeBlocks_print, ← hsnapshot]
  exact MultiQueue.mergeRest_roots _ [] hroot

/-- A tin whose figures are the words that announce them, and whose counters count the rows. -/
def confusingTin (name : TinName) : PrintedTin where
  name := name
  label l := .of l.keyword (by cases l <;> decide)
  count c := ⟨TinCounter.all.idxOf c, by cases c <;> decide⟩

/-- A queue on a device called `root`, without address translation, but with `nat` for its bandwidth. -/
def confusingQueue : PrintedQueue where
  handle := .of "8001" (by decide)
  noColon := by decide
  interface := .of "root" (by decide)
  bandwidth := some (.of "nat" (by decide))
  diffserv := some ⟨"diffserv3", by decide⟩
  ingress := true
  framing := some .noatm
  overhead := some (.of "ingress" (by decide))
  totals c := ⟨Total.all.idxOf c, by cases c <;> decide⟩
  backlogBytes := .of "0b" (by decide)
  memoryUsed := .of "used:" (by decide)
  memoryTotal := .of "of" (by decide)
  capacity := .of "Tin" (by decide)
  minNet := .of "28" (by decide)
  maxNet := .of "1500" (by decide)
  minAdjusted := .of "64" (by decide)
  maxAdjusted := .of "1518" (by decide)
  headerOffset := .of "14" (by decide)
  tins := [confusingTin .bestEffort, confusingTin (.numbered (.of "Best" (by decide))),
    confusingTin (.single "Voice" (by decide) (by decide) (by decide))]

/-- A queue of the loopback device. -/
def loopbackQueue : OtherQueue where
  header := "qdisc noqueue 0: dev lo root refcnt 2 "
  body := [" Sent 0 bytes 0 pkt (dropped 0, overlimits 0 requeues 0) ", " backlog 0b 0p requeues 0"]
  begins := by decide
  noQueue := by decide
  noMultiQueue := by decide
  inside := by decide
  oneLine := by decide

/-- Words that could be taken for others are read for what they are, with the table and without it. -/
theorem snapshots_print_confusing :
    let bare : PrintedQueue := { confusingQueue with ingress := false, tins := [] }
    snapshots 7 (print [.cake confusingQueue, .other loopbackQueue, .cake bare])
        = .ok [confusingQueue.snapshot 7, bare.snapshot 7] ∧
      confusingQueue.header
        = ("qdisc cake 8001: dev root root refcnt 2 bandwidth nat diffserv3 nonat nowash " : Text)
          ++ ("ingress noatm overhead ingress" : Text) ∧
      confusingQueue.namesLine = "            Best Effort     Tin Best        Voice" ∧
      bare.options.direction = "egress" ∧
      (confusingQueue.snapshot 7).tins.map (·.name) = ["Best Effort", "Tin Best", "Voice"] :=
  ⟨snapshots_print 7 [.cake confusingQueue, .other loopbackQueue, .cake _], by decide, by decide, by decide,
    by decide⟩

end Report

end CakeMonitor
