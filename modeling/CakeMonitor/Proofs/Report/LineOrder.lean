import CakeMonitor.Proofs.Report.SentTotal
import CakeMonitor.Proofs.Report.Setters
import CakeMonitor.Proofs.Report.TinTable

/-!
# The order of the lines of a block

Every line behind a header writes parts of the snapshot, and what it writes depends on the line alone. Lines
of different sorts write different parts. So where no two lines write the same part their order makes no
difference, as long as each stays on its side of the header of the tin table.

* `Draft.Part`, `Draft.content`, `Draft.stem`: the parts that lines write, and what they leave alone.
* `Line.Kind.parts`: the parts that a line writes. `Draft.content_add_of_not_mem` and
  `Draft.content_add_of_mem` say that it writes these and no others, and reads none.
* `Line.Kind.topic?`: the sorts of lines. By `Line.topic?_of_mem_parts` each part is written by lines of
  one sort only.
* `Line.Kind.tells`: the lines that write something that the snapshot shows.
* `Block.readLines_rearranged`: the lines may come in another order, and those that say nothing may stand
  anywhere on their side.
-/

namespace CakeMonitor

/-! ## The parts of a draft -/

namespace Draft

/-- A part of a draft that lines write. -/
inductive Part where
  | total (c : Total)
  | backlogBytes
  | memory
  | capacity
  | headerOffset
  | netSizes
  | adjustedSizes
  /-- the names of the tins -/
  | names
  /-- the row of the tin table with that key -/
  | row (key : Text)

/-- What may stand in a part. -/
def Part.Content : Part → Type
  | .total _ => Int
  | .backlogBytes | .capacity | .headerOffset => Text
  | .memory | .netSizes | .adjustedSizes => Text × Text
  | .names | .row _ => List Text

/-- What stands in a part. -/
def content (d : Draft) : (p : Part) → p.Content
  | .total c => d.snapshot.totals.get c
  | .backlogBytes => d.snapshot.backlogBytes
  | .memory => (d.snapshot.memoryUsed, d.snapshot.memoryTotal)
  | .capacity => d.snapshot.capacityEstimate
  | .headerOffset => d.snapshot.sizes.headerOffset
  | .netSizes => (d.snapshot.sizes.minNet, d.snapshot.sizes.maxNet)
  | .adjustedSizes => (d.snapshot.sizes.minAdjusted, d.snapshot.sizes.maxAdjusted)
  | .names => d.names
  | .row key => TinTable.row key d.rows

/-- The snapshot without the parts that lines write. -/
def stem (d : Draft) : Snapshot :=
  { d.snapshot with
    totals := {}, backlogBytes := [], memoryUsed := [], memoryTotal := [], capacityEstimate := []
    sizes := {} }

theorem snapshot_eq_of_content {d e : Draft} (hstem : d.stem = e.stem)
    (h : ∀ p, d.content p = e.content p) : d.snapshot = e.snapshot := by
  have htotals : d.snapshot.totals = e.snapshot.totals := Totals.eq_of_get fun c => h (.total c)
  have hbacklog : d.snapshot.backlogBytes = e.snapshot.backlogBytes := h .backlogBytes
  have hcapacity : d.snapshot.capacityEstimate = e.snapshot.capacityEstimate := h .capacity
  obtain ⟨hused, htotal⟩ := Prod.mk.inj (h .memory)
  have hsizes : d.snapshot.sizes = e.snapshot.sizes := by
    obtain ⟨hmin, hmax⟩ := Prod.mk.inj (h .netSizes)
    obtain ⟨hmin', hmax'⟩ := Prod.mk.inj (h .adjustedSizes)
    have hoffset : d.snapshot.sizes.headerOffset = e.snapshot.sizes.headerOffset := h .headerOffset
    exact PacketSizes.mk.injEq .. |>.mpr ⟨hmin, hmax, hmin', hmax', hoffset⟩
  calc d.snapshot
      = { d.stem with
          totals := d.snapshot.totals, backlogBytes := d.snapshot.backlogBytes
          memoryUsed := d.snapshot.memoryUsed, memoryTotal := d.snapshot.memoryTotal
          capacityEstimate := d.snapshot.capacityEstimate, sizes := d.snapshot.sizes } := rfl
    _ = { e.stem with
          totals := e.snapshot.totals, backlogBytes := e.snapshot.backlogBytes
          memoryUsed := e.snapshot.memoryUsed, memoryTotal := e.snapshot.memoryTotal
          capacityEstimate := e.snapshot.capacityEstimate, sizes := e.snapshot.sizes } := by
        rw [hstem, htotals, hbacklog, hused, htotal, hcapacity, hsizes]
    _ = e.snapshot := rfl

/-- **A finished snapshot is what its parts are.** -/
theorem finish_eq_of_content {d e : Draft} (hstem : d.stem = e.stem)
    (h : ∀ p, d.content p = e.content p) : d.finish = e.finish := by
  have hnames : d.names = e.names := h .names
  have hrow (key : Text) : TinTable.row key d.rows = TinTable.row key e.rows := h (.row key)
  have htins : TinTable.assemble d.names d.rows = TinTable.assemble e.names e.rows := by
    simp only [TinTable.assemble, TinTable.tin, TinTable.cell, hrow, hnames]
  rw [finish, finish, htins, snapshot_eq_of_content hstem h]

end Draft

/-! ## The parts that a line writes -/

namespace Line

open Draft (Part)

/-- The parts that a `backlog` line writes. -/
def backlogParts (line : Text) : List Part :=
  match line.words with
  | _ :: _ :: _ :: _ => [.backlogBytes, .total .backlogPkts]
  | _ => []

/-- The parts that a line writes. -/
def Kind.parts : Kind → List Part
  | .row key _ => [.row key]
  | .sent line => ((sentTokens line).map (·.1)).map .total
  | .backlog line => backlogParts line
  | .memory line => if (memory? line).isSome then [.memory] else []
  | .capacity _ => [.capacity]
  | .headerOffset _ => [.headerOffset]
  | .netSizes _ => [.netSizes]
  | .adjustedSizes _ => [.adjustedSizes]
  | .tinNames _ => [.names]
  | .other => []

/-- A `Sent` line writes the counters that it changes. -/
theorem mem_parts_sent {line : Text} {changes : List (Total × Int)} (h : sent line = .ok changes)
    {c : Total} : .total c ∈ (Kind.sent line).parts ↔ c ∈ changes.map (·.1) := by
  rw [keys_counted h]
  exact List.mem_map_of_injective fun _ _ => Part.total.inj

/-- A `backlog` line writes its two parts or nothing. -/
theorem backlogParts_eq {line : Text} {b : Option (Text × Int)} (h : backlog? line = .ok b) :
    backlogParts line = if b.isSome then [.backlogBytes, .total .backlogPkts] else [] := by
  unfold backlog? at h
  unfold backlogParts
  match line.words, h with
  | [], h | [_], h | [_, _], h =>
    obtain rfl := Except.ok.inj h
    rfl
  | _ :: _ :: _ :: _, h =>
    obtain ⟨n, -, h⟩ := bind_eq_ok.mp h
    obtain rfl := Except.ok.inj h
    rfl

end Line

namespace Draft

open Line (Kind)

variable {d d' e e' : Draft} {k : Kind}

/-- No line changes what the header says. -/
theorem stem_add (h : d.add k = .ok d') : d'.stem = d.stem := by
  cases k with
  | sent line =>
    obtain ⟨changes, -, rfl⟩ := map_eq_ok.mp h
    rfl
  | backlog line =>
    obtain ⟨b, -, rfl⟩ := map_eq_ok.mp h
    cases b <;> rfl
  | memory line =>
    obtain rfl := Except.ok.inj h
    cases Line.memory? line <;> rfl
  | _ =>
    obtain rfl := Except.ok.inj h
    rfl

/-- **A line leaves the parts of other lines alone.** -/
theorem content_add_of_not_mem {p : Part} (h : d.add k = .ok d') (hp : p ∉ k.parts) :
    d'.content p = d.content p := by
  cases k with
  | sent line =>
    obtain ⟨changes, hchanges, rfl⟩ := map_eq_ok.mp h
    cases p with
    | total c => exact Totals.get_setAll_of_ne (mt (Line.mem_parts_sent hchanges).mpr hp) _
    | _ => rfl
  | backlog line =>
    obtain ⟨b, hb, rfl⟩ := map_eq_ok.mp h
    rw [Kind.parts, Line.backlogParts_eq hb] at hp
    cases b with
    | none => rfl
    | some b =>
      cases p with
      | total c =>
        refine Totals.get_setAll_of_ne ?_ _
        rintro hc
        obtain rfl := List.mem_singleton.mp hc
        exact hp (by simp)
      | backlogBytes => exact absurd List.mem_cons_self hp
      | _ => rfl
  | memory line =>
    obtain rfl := Except.ok.inj h
    cases hm : Line.memory? line with
    | none => rfl
    | some m =>
      cases p with
      | memory => exact absurd (by simp [Kind.parts, hm]) hp
      | _ => rfl
  | row key values =>
    obtain rfl := Except.ok.inj h
    cases p with
    | row key' =>
      have hne : key ≠ key' := fun heq => hp (heq ▸ List.mem_cons_self)
      exact TinTable.row_append_of_ne hne d.rows
    | _ => rfl
  | _ =>
    obtain rfl := Except.ok.inj h
    cases p <;> first | rfl | exact absurd List.mem_cons_self hp

/-- **What a line writes depends on the line alone.** -/
theorem content_add_of_mem {p : Part} (h : d.add k = .ok d') (he : e.add k = .ok e')
    (hp : p ∈ k.parts) : d'.content p = e'.content p := by
  cases k with
  | sent line =>
    obtain ⟨changes, hchanges, rfl⟩ := map_eq_ok.mp h
    obtain ⟨_, hsame, rfl⟩ := map_eq_ok.mp he
    obtain rfl := Except.ok.inj (hchanges.symm.trans hsame)
    obtain ⟨c, -, rfl⟩ := List.mem_map.mp hp
    exact Totals.get_setAll_of_mem ((Line.mem_parts_sent hchanges).mp hp) _ _
  | backlog line =>
    obtain ⟨b, hb, rfl⟩ := map_eq_ok.mp h
    obtain ⟨_, hsame, rfl⟩ := map_eq_ok.mp he
    obtain rfl := Except.ok.inj (hb.symm.trans hsame)
    rw [Kind.parts, Line.backlogParts_eq hb] at hp
    cases b with
    | none => cases hp
    | some b =>
      rcases List.mem_cons.mp hp with rfl | hp
      · rfl
      · obtain rfl := List.mem_singleton.mp hp
        have hmem : Total.backlogPkts ∈ [(Total.backlogPkts, b.2)].map (·.1) := List.mem_cons_self
        exact Totals.get_setAll_of_mem hmem _ _
  | memory line =>
    obtain rfl := Except.ok.inj h
    obtain rfl := Except.ok.inj he
    cases hm : Line.memory? line with
    | none => simp [Kind.parts, hm] at hp
    | some m =>
      obtain rfl : p = .memory := by simpa [Kind.parts, hm] using hp
      rfl
  | row key values =>
    obtain rfl := Except.ok.inj h
    obtain rfl := Except.ok.inj he
    obtain rfl := List.mem_singleton.mp hp
    exact (TinTable.row_append_self d.rows key values).trans
      (TinTable.row_append_self e.rows key values).symm
  | other => cases hp
  | _ =>
    obtain rfl := Except.ok.inj h
    obtain rfl := Except.ok.inj he
    obtain rfl := List.mem_singleton.mp hp
    rfl

end Draft

/-! ## Lines of different sorts -/

namespace Line

open Draft (Part)

/-- What a line is about. -/
inductive Topic where
  | sent
  | backlog
  | memory
  | capacity
  | headerOffset
  | netSizes
  | adjustedSizes
  | tinNames
  | row (key : Text)
  deriving DecidableEq

/-- What a line of that kind is about, if anything. -/
def Kind.topic? : Kind → Option Topic
  | .row key _ => some (.row key)
  | .sent _ => some .sent
  | .backlog _ => some .backlog
  | .memory _ => some .memory
  | .capacity _ => some .capacity
  | .headerOffset _ => some .headerOffset
  | .netSizes _ => some .netSizes
  | .adjustedSizes _ => some .adjustedSizes
  | .tinNames _ => some .tinNames
  | .other => none

/-- What the lines are about that write a part. -/
def topicOf : Part → Topic
  | .total .backlogPkts | .backlogBytes => .backlog
  | .total _ => .sent
  | .memory => .memory
  | .capacity => .capacity
  | .headerOffset => .headerOffset
  | .netSizes => .netSizes
  | .adjustedSizes => .adjustedSizes
  | .names => .tinNames
  | .row key => .row key

/-- A `Sent` line does not count the packets of the backlog. -/
theorem backlogPkts_not_mem_sentTokens (line : Text) :
    Total.backlogPkts ∉ (sentTokens line).map (·.1) := by
  rw [sentTokens, List.map_append, List.mem_append, not_or]
  refine ⟨?_, fun h => absurd (mem_sentCounters_of_mem_drops h) (by decide)⟩
  split <;> simp

/-- **Each part is written by lines of one sort only.** -/
theorem topic?_of_mem_parts {k : Kind} {p : Part} (h : p ∈ k.parts) : k.topic? = some (topicOf p) := by
  cases k with
  | sent line =>
    obtain ⟨c, hc, rfl⟩ := List.mem_map.mp h
    have hne : c ≠ .backlogPkts := fun heq => backlogPkts_not_mem_sentTokens line (heq ▸ hc)
    cases c <;> first | rfl | exact absurd rfl hne
  | backlog line =>
    have hmem : p ∈ backlogParts line := h
    unfold backlogParts at hmem
    split at hmem
    · rcases List.mem_cons.mp hmem with rfl | hmem
      · rfl
      · obtain rfl := List.mem_singleton.mp hmem
        rfl
    · cases hmem
  | memory line =>
    have hmem : p ∈ if (memory? line).isSome then [Part.memory] else [] := h
    split at hmem
    · obtain rfl := List.mem_singleton.mp hmem
      rfl
    · cases hmem
  | other => cases h
  | _ =>
    obtain rfl := List.mem_singleton.mp h
    rfl

/-- No two of the lines write the same part. -/
def Apart (ks : List Kind) : Prop := ks.Pairwise fun k l => k.parts.Disjoint l.parts

/-- Lines on different topics write different parts. -/
theorem apart_of_nodup {ks : List Kind} (h : (ks.filterMap Kind.topic?).Nodup) : Apart ks := by
  refine (List.pairwise_filterMap.mp h).imp fun {k l} hne p hk hl => ?_
  exact hne _ (topic?_of_mem_parts hk) _ (topic?_of_mem_parts hl) rfl

/-- The writer of a part is the only one. -/
theorem Apart.eq_of_mem {ks : List Kind} (h : Apart ks) {k l : Kind} (hk : k ∈ ks) (hl : l ∈ ks)
    {p : Part} (hpk : p ∈ k.parts) (hpl : p ∈ l.parts) : l = k := by
  by_contra hne
  have hsymm : Std.Symm fun k l : Kind => k.parts.Disjoint l.parts :=
    ⟨fun _ _ hd _ hpk hpl => hd hpl hpk⟩
  exact h.forall hl hk hne hpl hpk

end Line

/-! ## Lines in another order -/

namespace Draft

open Line (Kind)

variable {d d' e e' : Draft} {p : Part}

/-- No lines change what the header says. -/
theorem stem_foldlM {ks : List Kind} (h : ks.foldlM add d = .ok d') : d'.stem = d.stem :=
  foldlM_preserves (P := fun e => e.stem = d.stem)
    (fun _ _ _ hadd hstem => (stem_add hadd).trans hstem) h rfl

/-- What none of the lines writes stays. -/
theorem content_foldlM_of_not_mem : ∀ {ks : List Kind} {d d' : Draft}, ks.foldlM add d = .ok d' →
    (∀ k ∈ ks, p ∉ k.parts) → d'.content p = d.content p
  | [], d, d', h, _ => by
    obtain rfl := Except.ok.inj h
    rfl
  | k :: ks, d, d', h, hp => by
    rw [List.foldlM_cons] at h
    obtain ⟨d₁, hadd, h⟩ := bind_eq_ok.mp h
    have hrest := content_foldlM_of_not_mem h fun l hl => hp l (List.mem_cons_of_mem k hl)
    exact hrest.trans (content_add_of_not_mem hadd (hp k List.mem_cons_self))

/-- What only one line writes is what that line writes. -/
theorem content_foldlM_of_mem {k : Kind} (hp : p ∈ k.parts) (hk : e.add k = .ok e') :
    ∀ {ks : List Kind} {d d' : Draft}, ks.foldlM add d = .ok d' → k ∈ ks →
      (∀ l ∈ ks, p ∈ l.parts → l = k) → d'.content p = e'.content p
  | [], _, _, _, hmem, _ => absurd hmem List.not_mem_nil
  | l :: ks, d, d', h, hmem, honly => by
    rw [List.foldlM_cons] at h
    obtain ⟨d₁, hadd, hks⟩ := bind_eq_ok.mp h
    have hrest : ∀ l ∈ ks, p ∈ l.parts → l = k := fun m hm => honly m (List.mem_cons_of_mem l hm)
    by_cases hlater : k ∈ ks
    · exact content_foldlM_of_mem hp hk hks hlater hrest
    · obtain rfl : k = l := (List.mem_cons.mp hmem).resolve_right hlater
      rw [content_foldlM_of_not_mem hks fun l hl hpl => hlater (hrest l hl hpl ▸ hl)]
      exact content_add_of_mem hadd hk hp

/-- **Lines that write different parts may be added in any order.** -/
theorem foldlM_perm {ks ks' : List Kind} (hperm : ks.Perm ks') (hapart : Line.Apart ks)
    (h : ks.foldlM add d = .ok d') :
    ∃ e, ks'.foldlM add d = .ok e ∧ e.stem = d'.stem ∧ ∀ p, e.content p = d'.content p := by
  have hadd : ∀ k ∈ ks, ∀ token ∈ k.counters, Counter.Legible token :=
    (succeeds_foldlM succeeds_add).mp ⟨d', h⟩
  have hperm' : ∀ k ∈ ks', k ∈ ks := fun k hk => hperm.mem_iff.mpr hk
  obtain ⟨e, he⟩ : Succeeds (ks'.foldlM add d) :=
    (succeeds_foldlM succeeds_add).mpr fun k hk => hadd k (hperm' k hk)
  refine ⟨e, he, (stem_foldlM he).trans (stem_foldlM h).symm, fun p => ?_⟩
  -- a part has what its only writer writes, wherever that stands, or what it had before
  by_cases hwritten : ∃ k ∈ ks, p ∈ k.parts
  · obtain ⟨k, hk, hp⟩ := hwritten
    obtain ⟨c, hc⟩ := (succeeds_add d k).mpr (hadd k hk)
    have honly : ∀ l ∈ ks, p ∈ l.parts → l = k := fun l hl hpl => hapart.eq_of_mem hk hl hp hpl
    rw [content_foldlM_of_mem hp hc h hk honly]
    exact content_foldlM_of_mem hp hc he (hperm.mem_iff.mp hk) fun l hl => honly l (hperm' l hl)
  · have hnone : ∀ k ∈ ks, p ∉ k.parts := fun k hk hp => hwritten ⟨k, hk, hp⟩
    rw [content_foldlM_of_not_mem h hnone]
    exact content_foldlM_of_not_mem he fun k hk => hnone k (hperm' k hk)

end Draft

/-! ## Lines that say nothing -/

namespace Line

/-- The line writes a part that the snapshot shows. -/
def Kind.tells (k : Kind) : Bool := !k.parts.isEmpty && k.stays TinTable.isKeyword

/-- The same of a line; `inTable` tells whether the header of a tin table came before. -/
def tells (inTable : Bool) (line : Text) : Bool := (classify inTable line).tells

end Line

namespace Draft

open Line (Kind)

/-- A line without parts adds nothing. -/
theorem add_of_parts_eq_nil {k : Kind} (h : k.parts = []) (d : Draft) : d.add k = .ok d := by
  cases k with
  | sent line =>
    have htokens : Line.sentTokens line = [] := by simpa [Kind.parts] using h
    rw [add, Line.sent_eq, htokens]
    rfl
  | backlog line =>
    have hparts : Line.backlogParts line = [] := h
    have hnone : Line.backlog? line = .ok none := by
      unfold Line.backlogParts at hparts
      unfold Line.backlog?
      rcases hwords : line.words with _ | ⟨w, _ | ⟨v, _ | ⟨u, ws⟩⟩⟩ <;> rw [hwords] at hparts
      · rfl
      · rfl
      · rfl
      · cases hparts
    rw [add, hnone]
    rfl
  | memory line =>
    have hnone : Line.memory? line = none := by simpa [Kind.parts] using h
    rw [add, hnone]
  | other => rfl
  | _ => cases h

/-- **Lines that say nothing may be left out**, up to rows that no tin shows. -/
theorem foldlM_tells (ks : List Kind) (d : Draft) :
    (ks.foldlM add d).map (keepRows TinTable.isKeyword)
      = (ks.filter Kind.tells).foldlM add (d.keepRows TinTable.isKeyword) := by
  have hskip (d : Draft) (k : Kind) :
      (if (!k.parts.isEmpty) = true then d.add k else pure d) = d.add k := by
    split_ifs with h
    · rfl
    · exact (add_of_parts_eq_nil (by simpa using h) d).symm
  have hdrop (ks : List Kind) (d : Draft) :
      (ks.filter fun k => !k.parts.isEmpty).foldlM add d = ks.foldlM add d := by
    rw [List.foldlM_filter]
    simp only [hskip]
  have hfilter : ks.filter Kind.tells
      = (ks.filter (Kind.stays TinTable.isKeyword)).filter fun k => !k.parts.isEmpty :=
    List.filter_filter.symm
  rw [keepRows_foldlM, hfilter, hdrop]

end Draft

namespace Block

/-- The blocks have the same lines, those in front of the table and those of the table each in an order of
their own. -/
structure Rearranged (lines lines' : List Text) : Prop where
  header : lines.head? = lines'.head?
  front : (front lines).Perm (front lines')
  table : (table lines).Perm (table lines')

/-- The blocks have the same lines but for some that say nothing. -/
structure DifferInSilence (lines lines' : List Text) : Prop where
  header : lines.head? = lines'.head?
  front : (front lines).filter (Line.tells false) = (front lines').filter (Line.tells false)
  table : (table lines).filter (Line.tells true) = (table lines').filter (Line.tells true)

theorem Rearranged.kinds {lines lines' : List Text} (h : Rearranged lines lines') :
    (kinds lines).Perm (kinds lines') := by
  rw [kinds_eq, kinds_eq]
  exact (h.front.map _).append (h.table.map _)

theorem Rearranged.readLines_eq {lines lines' : List Text} (h : Rearranged lines lines')
    (hapart : Line.Apart (Block.kinds lines)) {t : Timestamp} {s : Snapshot}
    (hs : readLines t lines = .ok s) : readLines t lines' = .ok s := by
  rw [Block.readLines_eq] at hs ⊢
  obtain ⟨d, hd, hs⟩ := bind_eq_ok.mp hs
  obtain ⟨e, he, hstem, hcontent⟩ := Draft.foldlM_perm h.kinds hapart hd
  rw [← headD_eq_of_head? h.header, he]
  exact (Draft.finish_eq_of_content hstem hcontent).trans hs

theorem DifferInSilence.kinds {lines lines' : List Text} (h : DifferInSilence lines lines') :
    (kinds lines).filter Line.Kind.tells = (kinds lines').filter Line.Kind.tells := by
  have hside (inTable : Bool) (ls : List Text) : (ls.map (Line.classify inTable)).filter Line.Kind.tells
      = (ls.filter (Line.tells inTable)).map (Line.classify inTable) := List.filter_map
  simp only [kinds_eq, List.filter_append, hside, h.front, h.table]

theorem DifferInSilence.readLines_eq {lines lines' : List Text} (h : DifferInSilence lines lines')
    (t : Timestamp) : readLines t lines = readLines t lines' := by
  rw [Block.readLines_eq, Block.readLines_eq, Draft.bind_finish_keepRows, Draft.foldlM_tells, h.kinds,
    ← Draft.foldlM_tells, ← Draft.bind_finish_keepRows, headD_eq_of_head? h.header]

/-- **The order of the lines of a block makes no difference.** Where a block can be read and no two of its
lines write the same part, the lines in front of the table may come in any order, and so may those of the
table. Lines on different topics never write the same part. And the lines that say nothing may be put
elsewhere on their side of the table's header, or left out. -/
theorem readLines_rearranged (t : Timestamp) :
    (∀ lines lines' s, readLines t lines = .ok s → Line.Apart (kinds lines) →
      Rearranged lines lines' → readLines t lines' = .ok s) ∧
    (∀ lines, ((kinds lines).filterMap Line.Kind.topic?).Nodup → Line.Apart (kinds lines)) ∧
    ∀ lines lines', DifferInSilence lines lines' → readLines t lines = readLines t lines' :=
  ⟨fun _ _ _ hs hapart h => h.readLines_eq hapart hs, fun _ h => Line.apart_of_nodup h,
    fun _ _ h => h.readLines_eq t⟩

/-- A block with lines of several sorts and two rows. -/
def ordered : List Text :=
  ["qdisc cake 1: dev e root", " Sent 5 bytes 1 pkt (requeues 4)", " backlog 6b 7p requeues 8",
   " memory used: 1b of 2b", "   Bulk  Voice", "  thresh  1bit  2bit", "  backlog  7b  8b"]

/-- The same lines in another order. -/
def reordered : List Text :=
  ["qdisc cake 1: dev e root", " memory used: 1b of 2b", " backlog 6b 7p requeues 8",
   " Sent 5 bytes 1 pkt (requeues 4)", "   Bulk  Voice", "  backlog  7b  8b", "  thresh  1bit  2bit"]

/-- The same again with lines that say nothing: one that is too short, a blank one, one without label and a
row of an unknown key. -/
def interspersed : List Text :=
  ["qdisc cake 1: dev e root", " backlog 3b", " memory used: 1b of 2b", " ",
   " backlog 6b 7p requeues 8", " Sent 5 bytes 1 pkt (requeues 4)", "   Bulk  Voice",
   "  backlog  7b  8b", " line", "  flows  1  2", "  thresh  1bit  2bit"]

/-- What all three blocks say. -/
def orderedSnapshot : Snapshot :=
  { interface := "e", handle := "1", rawHeader := "qdisc cake 1: dev e root"
    totals := { sentBytes := 5, sentPkts := 1, requeues := 4, backlogPkts := 7 }
    backlogBytes := "6b", memoryUsed := "1b", memoryTotal := "2b"
    tins := [{ name := "Bulk", labels := { thresh := "1bit", backlog := "7b" } },
      { name := "Voice", labels := { thresh := "2bit", backlog := "8b" } }] }

/-- A block in two orders, and with lines that say nothing. -/
theorem readLines_rearranged_ordered :
    Line.Apart (kinds ordered) ∧ Rearranged ordered reordered ∧ DifferInSilence reordered interspersed ∧
      readLines 0 ordered = .ok orderedSnapshot ∧ readLines 0 reordered = .ok orderedSnapshot ∧
      readLines 0 interspersed = .ok orderedSnapshot := by
  obtain ⟨horder, htopics, hsilence⟩ := readLines_rearranged 0
  have h : readLines 0 ordered = .ok orderedSnapshot := by decide +kernel
  have hapart : Line.Apart (kinds ordered) := htopics ordered (by decide +kernel)
  have hperm : Rearranged ordered reordered := ⟨rfl, by decide +kernel, by decide +kernel⟩
  have hsilent : DifferInSilence reordered interspersed := ⟨rfl, by decide +kernel, by decide +kernel⟩
  have h' := horder _ _ _ h hapart hperm
  exact ⟨hapart, hperm, hsilent, h, h', (hsilence _ _ hsilent).symm.trans h'⟩

end Block

end CakeMonitor
