import CakeMonitor.Proofs.MultiQueue.Local
import CakeMonitor.Proofs.MultiQueue.Nested
import CakeMonitor.Proofs.Report.Compose
import CakeMonitor.Proofs.Report.PrintedGroup

/-!
# A group in a report

A report may hold a group anywhere among other queues: a queue that spreads packets and the CAKE queues
under it, the parent before, between or behind its children. The group has one snapshot, which stands
for the parent and adds up the children, and the other snapshots are those of the report without it.

* `Paragraph`, `Member`: the queues of a report, some of them children of one place.
* `Report.cakeBlocks_printAll`: the CAKE queues of paragraphs that are printed.
* `Report.readAll_members`: which of them are the children, and which are left without the group.
* `StandsFor`: what the snapshot of the group says.
* `Report.snapshots_group`: the group in its report.
-/

namespace CakeMonitor

open Text (newline)

/-- The lines of a queue, whatever it is. -/
structure Paragraph where
  lines : List Text
  isParagraph : Report.IsParagraph lines
  oneLine : ∀ l ∈ lines, newline ∉ l

def ParentQueue.paragraph (q : ParentQueue) (p : Place) : Paragraph :=
  ⟨q.lines p, q.isParagraph_lines p, q.newline_not_mem_lines p⟩

def ChildQueue.paragraph (c : ChildQueue) (p : Place) : Paragraph :=
  ⟨c.lines p, c.isParagraph_lines p, c.newline_not_mem_lines p⟩

/-- A queue beside the parent of a group. -/
inductive Member where
  | child (c : ChildQueue)
  | other (o : Paragraph)

namespace Member

def paragraph (p : Place) : Member → Paragraph
  | child c => c.paragraph p
  | other o => o

/-- The children of the group, in order. -/
def children (ms : List Member) : List ChildQueue := ms.filterMap fun
  | child c => some c
  | other _ => none

/-- The queues that are no children. -/
def others (ms : List Member) : List Paragraph := ms.filterMap fun
  | child _ => none
  | other o => some o

end Member

namespace Report

variable {t : Timestamp} {p : Place}

/-! ## Paragraphs -/

/-- The report of some paragraphs. -/
def printAll (ps : List Paragraph) : Text := Text.unlines (ps.flatMap Paragraph.lines)

/-- The CAKE queues among some paragraphs. -/
def readAll (t : Timestamp) (ps : List Paragraph) : Except NumberError (List Block) :=
  (ps.mapM fun q => Block.read? t q.lines).map (·.filterMap id)

/-- **Each paragraph is a block of its own** in the report of them. -/
theorem cakeBlocks_printAll (t : Timestamp) (ps : List Paragraph) :
    cakeBlocks t (printAll ps) = readAll t ps := by
  have hlines : (printAll ps).lines = ps.flatMap Paragraph.lines ++ [[]] := by
    refine Text.lines_unlines fun l hl => ?_
    obtain ⟨q, -, hl⟩ := List.mem_flatMap.mp hl
    exact q.oneLine l hl
  have hgroup : group (ps.flatMap Paragraph.lines) = ps.map Paragraph.lines := by
    rw [List.flatMap_def]
    exact group_flatten (List.forall_mem_map.mpr fun q _ => q.isParagraph)
  have hblank : cakeLines t (ps.flatMap Paragraph.lines ++ [[]])
      = cakeLines t (ps.flatMap Paragraph.lines) := by
    cases ps.flatMap Paragraph.lines with
    | nil => rfl
    | cons l ls => exact cakeLines_append_blank l ls
  show cakeLines t (printAll ps).lines = _
  rw [hlines, hblank, cakeLines, hgroup, List.mapM_map]
  rfl

theorem readAll_cons (t : Timestamp) (q : Paragraph) (ps : List Paragraph) :
    readAll t (q :: ps) = (do
      let b ← Block.read? t q.lines
      let bs ← readAll t ps
      return b.toList ++ bs) := by
  rw [readAll, readAll, List.mapM_cons]
  cases Block.read? t q.lines with
  | error e => rfl
  | ok b =>
    cases (ps.mapM fun q => Block.read? t q.lines) with
    | error e => rfl
    | ok bs => cases b <;> rfl

theorem readAll_append (t : Timestamp) (qs : List Paragraph) : ∀ ps : List Paragraph,
    readAll t (ps ++ qs) = (do return (← readAll t ps) ++ (← readAll t qs))
  | [] => (bind_pure (readAll t qs)).symm
  | q :: ps => by
    rw [List.cons_append, readAll_cons, readAll_cons, readAll_append t qs ps]
    simp only [bind_assoc, pure_bind, List.append_assoc]

/-! ## Members -/

/-- None of the queues has the key of a place. -/
def Beside (t : Timestamp) (p : Place) (ps : List Paragraph) : Prop :=
  ∀ q ∈ ps, ∀ b, Block.read? t q.lines = .ok (some b) → ¬ MultiQueue.Names b p.key

open MultiQueue (children_append without_append without_singleton) in
/-- **The blocks of some members**: those of the children are the ones under the key of the place, and
the other ones are left without it. -/
theorem readAll_members {ms : List Member} (hothers : Beside t p (Member.others ms))
    {bs : List Block} (h : readAll t (ms.map (Member.paragraph p)) = .ok bs) :
    (Member.children ms).mapM (fun c => Block.readLines t (c.lines p))
        = .ok (MultiQueue.children bs p.key) ∧
      readAll t (Member.others ms) = .ok (MultiQueue.without p.key bs) ∧
      ∀ b ∈ bs, MultiQueue.parentKey? b ≠ some p.key := by
  induction ms generalizing bs with
  | nil =>
    obtain rfl := Except.ok.inj h
    exact ⟨rfl, rfl, List.forall_mem_nil _⟩
  | cons m ms ih =>
    rw [List.map_cons, readAll_cons] at h
    obtain ⟨b, hb, h⟩ := bind_eq_ok.mp h
    obtain ⟨rest, hrest, h⟩ := bind_eq_ok.mp h
    obtain rfl := Except.ok.inj h
    cases m with
    | child c =>
      have hms : Beside t p (Member.others ms) := hothers
      obtain ⟨hchildren, hwithout, hparents⟩ := ih hms hrest
      obtain ⟨s, hs, rfl⟩ := map_eq_ok.mp ((c.read?_lines p t).symm.trans hb)
      have hkey := c.childKey?_block p hs
      refine ⟨?_, ?_, ?_⟩
      · have hown : MultiQueue.children [⟨s, .under p.handle⟩] p.key = [s] := by
          simp [MultiQueue.children, hkey]
        show (c :: Member.children ms).mapM _ = _
        rw [List.mapM_cons, hs, hchildren, Option.toList_some, children_append, hown]
        rfl
      · show readAll t (Member.others ms) = _
        rw [hwithout, Option.toList_some, without_append, without_singleton (Or.inr hkey),
          List.nil_append]
      · refine List.forall_mem_cons.mpr ⟨?_, hparents⟩
        rw [MultiQueue.parentKey?_of_childKey? hkey]
        exact (Option.some_ne_none p.key).symm
    | other o =>
      obtain ⟨ho, hms⟩ := List.forall_mem_cons.mp hothers
      obtain ⟨hchildren, hwithout, hparents⟩ := ih hms hrest
      have hnot : ∀ c ∈ b.toList, ¬ MultiQueue.Names c p.key := fun c hc =>
        ho c (by rw [← Option.mem_toList.mp hc]; exact hb)
      refine ⟨?_, ?_, List.forall_mem_append.mpr ⟨fun c hc hp => hnot c hc (Or.inl hp), hparents⟩⟩
      · show (Member.children ms).mapM _ = _
        rw [hchildren, children_append, (MultiQueue.none_of_not_names hnot).2, List.nil_append]
      · have hself : MultiQueue.without p.key b.toList = b.toList :=
          List.filter_eq_self.mpr fun c hc => decide_eq_true (hnot c hc)
        have hread : Block.read? t o.lines = .ok b := hb
        show readAll t (o :: Member.others ms) = _
        rw [readAll_cons, hread, hwithout, without_append, hself]
        rfl

/-! ## The group -/

end Report

/-- A snapshot that stands for a parent and its children, given by the place, the header of the parent and
the snapshots of the children: identity from the parent, configuration from the first child, and the
counters and sizes of all children added up. -/
structure StandsFor (p : Place) (header : Text) (own : List Snapshot) (s : Snapshot) : Prop where
  interface : s.interface = p.device
  handle : s.handle = p.handle
  rawHeader : s.rawHeader = header.trim
  totals : ∀ c, s.totals.get c = (own.map (·.totals.get c)).sum
  backlog : MultiQueue.IsSum (own.map (·.backlogBytes)) s.backlogBytes
  memory : MultiQueue.IsSum (own.map (·.memoryUsed)) s.memoryUsed
  configuration : own.head?.map MultiQueue.kept = some (MultiQueue.kept s)
  tins : MultiQueue.mergeTins (own.map (·.tins)) = .ok s.tins

theorem StandsFor.of_mergeQueues {p : Place} {header : Text} {parent s : Snapshot}
    {own : List Snapshot} (hidentity : identity parent = (p.device, p.handle, header.trim))
    (hown : own ≠ []) (h : MultiQueue.mergeQueues parent own = .ok s) :
    StandsFor p header own s := by
  obtain ⟨first, rest, rfl⟩ := List.exists_cons_of_ne_nil hown
  have htotals := MultiQueue.total_mergeQueues h
  obtain ⟨backlogBytes, memoryUsed, tins, hbacklog, hmemory, htins, rfl⟩ :=
    MultiQueue.mergeQueues_cons h
  rw [identity, Prod.mk.injEq, Prod.mk.injEq] at hidentity
  obtain ⟨hinterface, hhandle, hheader⟩ := hidentity
  exact ⟨hinterface, hhandle, hheader, htotals, MultiQueue.isSum_of_addSizes hbacklog,
    MultiQueue.isSum_of_addSizes hmemory, rfl, htins⟩

namespace Report

/-- The report of a parent, of the queues in front of it and of those behind it. -/
def printGroup (p : Place) (parent : ParentQueue) (before after : List Member) : Text :=
  printAll (before.map (Member.paragraph p) ++ parent.paragraph p :: after.map (Member.paragraph p))

variable {t : Timestamp} {p : Place}

/-- The blocks of a group, in front of the parent, of the parent and behind it. -/
theorem cakeBlocks_printGroup {parent : ParentQueue} {before after : List Member} {bs : List Block}
    (h : cakeBlocks t (printGroup p parent before after) = .ok bs) : ∃ front s back,
      bs = front ++ ⟨s, .multiQueue⟩ :: back ∧
      readAll t (before.map (Member.paragraph p)) = .ok front ∧
      Block.readLines t (parent.lines p) = .ok s ∧
      readAll t (after.map (Member.paragraph p)) = .ok back := by
  rw [printGroup, cakeBlocks_printAll, readAll_append, readAll_cons] at h
  obtain ⟨front, hfront, h⟩ := bind_eq_ok.mp h
  obtain ⟨others, hothers, h⟩ := bind_eq_ok.mp h
  obtain ⟨b, hb, hothers⟩ := bind_eq_ok.mp hothers
  obtain ⟨back, hback, hothers⟩ := bind_eq_ok.mp hothers
  obtain rfl := Except.ok.inj hothers
  obtain rfl := Except.ok.inj h
  obtain ⟨s, hs, rfl⟩ := map_eq_ok.mp ((parent.read?_lines p t).symm.trans hb)
  exact ⟨front, s, back, rfl, hfront, hs, hback⟩

/-- **A group in a report** has exactly one snapshot, which stands for the parent and its children; no
child has one of its own, and the other snapshots are those of the report without the group. A child
that is printed like a queue at the root says what that says. -/
theorem snapshots_group (t : Timestamp) (p : Place) :
    (∀ (parent : ParentQueue) (before after : List Member),
      Member.children (before ++ after) ≠ [] → Beside t p (Member.others (before ++ after)) →
      ∀ outputs, snapshots t (printGroup p parent before after) = .ok outputs →
        ∃ front merged back own, outputs = front ++ merged :: back ∧
          snapshots t (printAll (Member.others (before ++ after))) = .ok (front ++ back) ∧
          (Member.children (before ++ after)).mapM (fun c => Block.readLines t (c.lines p))
            = .ok own ∧
          StandsFor p (parent.header p) own merged) ∧
    ∀ q minor solid, Block.readLines t ((ChildQueue.ofPrinted q minor solid).lines p)
      = .ok { q.snapshot t with
          interface := p.device
          rawHeader := ((ChildQueue.ofPrinted q minor solid).header p).trim } := by
  refine ⟨?_, fun q minor solid => ChildQueue.readLines_ofPrinted q minor solid p t⟩
  intro parent before after hchildren hothers outputs h
  obtain ⟨bs, hbs, hmerge⟩ := bind_eq_ok.mp h
  obtain ⟨front, s, back, rfl, hfront, hs, hback⟩ := cakeBlocks_printGroup hbs
  have hmembers : readAll t ((before ++ after).map (Member.paragraph p)) = .ok (front ++ back) := by
    rw [List.map_append, readAll_append, hfront, hback]
    rfl
  obtain ⟨hown, hwithout, hparents⟩ := readAll_members hothers hmembers
  obtain ⟨left, merged, right, houtputs, hmerged, hrest⟩ :=
    MultiQueue.merge_group (parent.parentKey?_block p hs) hparents hmerge
  have hne : MultiQueue.children (front ++ back) p.key ≠ [] := by
    intro hnil
    rw [hnil] at hown
    exact hchildren (List.forall₂_nil_right_iff.mp (forall₂_of_mapM hown))
  refine ⟨left, merged, right, _, houtputs, ?_, hown,
    .of_mergeQueues (parent.identity_readLines p hs) hne hmerged⟩
  have hblocks : cakeBlocks t (printAll (Member.others (before ++ after)))
      = .ok (MultiQueue.without p.key (front ++ back)) :=
    (cakeBlocks_printAll t _).trans hwithout
  exact (snapshots_of_cakeBlocks hblocks).trans hrest

/-- A device whose name is a word of its children's headers. -/
def parentDevice : Place := ⟨"parent", "1", by decide, by decide, by decide⟩

def spreadParent : ParentQueue where
  rest := " refcnt 9"
  inside := by decide
  oneLine := by decide

def firstChild : ChildQueue where
  handle := "0"
  minor := "1"
  options := ["bandwidth", "10Mbit"]
  body := [" Sent 5 bytes 1 pkt", " backlog 3b 1p requeues 0"]
  isWord_handle := by decide
  solid := by decide
  isWord_options := by decide
  noMultiQueue := by decide
  inside := by decide
  oneLine := by decide

def secondChild : ChildQueue where
  handle := "0"
  minor := "2"
  options := ["bandwidth", "20Mbit"]
  body := [" Sent 7 bytes 2 pkt", " backlog 1Kb 2p requeues 0"]
  isWord_handle := by decide
  solid := by decide
  isWord_options := by decide
  noMultiQueue := by decide
  inside := by decide
  oneLine := by decide

/-- A parent of the same handle on another device. -/
def otherParent : Paragraph where
  lines := ["qdisc cake_mq 1: dev eth1 root"]
  isParagraph := .intro (by decide) (by decide)
  oneLine := by decide

/-- A group on a device called like the word in front of a parent, beside a parent of its handle on another
device. -/
theorem snapshots_group_parentDevice :
    ∃ front merged back own,
      [{ interface := "eth1", handle := "1", rawHeader := "qdisc cake_mq 1: dev eth1 root" },
       { interface := "parent", handle := "1", rawHeader := "qdisc cake_mq 1: dev parent root refcnt 9"
         options := { bandwidth := "10Mbit" }
         totals := ({} : Totals).setAll [(.sentBytes, 12), (.sentPkts, 3), (.backlogPkts, 3)]
         backlogBytes := "1027b", memoryUsed := "0b" }] = front ++ merged :: back ∧
      snapshots 0 (printAll [otherParent]) = .ok (front ++ back) ∧
      [firstChild, secondChild].mapM (fun c => Block.readLines 0 (c.lines parentDevice)) = .ok own ∧
      StandsFor parentDevice (spreadParent.header parentDevice) own merged := by
  have hbeside : Beside 0 parentDevice [otherParent] := by
    intro q hq b hb
    have hread : Block.read? 0 otherParent.lines = .ok (some
        ⟨{ interface := "eth1", handle := "1", rawHeader := "qdisc cake_mq 1: dev eth1 root" },
          .multiQueue⟩) := by decide +kernel
    rw [List.mem_singleton.mp hq, hread] at hb
    obtain rfl := Option.some.inj (Except.ok.inj hb)
    decide
  exact (snapshots_group 0 parentDevice).1 spreadParent [.child firstChild, .other otherParent]
    [.child secondChild] (List.cons_ne_nil firstChild [secondChild]) hbeside _ (by decide +kernel)

end Report

end CakeMonitor
