import CakeMonitor.Proofs.MultiQueue.Addable

/-!
# Reports that can be read

Whatever a report says, its lines fall into blocks and its blocks have headers, so only its numbers can
keep it from being read. Here are all numbers that are read on the way, block by block, and when that
works.

* `Line.kinds`: the kinds of the lines behind a header, as they follow from the lines alone.
* `Block.counters`: the counters of a block, on its lines and in its table of tins.
* `Report.Legible`: a report whose counters can be read and whose sizes can be merged.
* `Report.snapshots_iff_legible`: exactly these reports give snapshots.
-/

namespace CakeMonitor

/-! ## Lines -/

namespace Line

/-- The tokens of a `Sent` line that are read as counters, with the counters they set. -/
def sentTokens (line : Text) : List (Total × Text) :=
  (match line.words with
    | _ :: bytes :: _ :: packets :: _ => [(.sentBytes, bytes), (.sentPkts, packets)]
    | _ => [])
  ++ (sentPairs line).filterMap fun (k, v) => (sentCounter? k).map (·, v)

theorem sent_eq (line : Text) :
    sent line = (sentTokens line).mapM fun (c, token) => counted c token := rfl

/-- The token of a `backlog` line that is read as a counter, if it has three words. -/
def backlogTokens (line : Text) : List Text :=
  match line.words with
  | _ :: _ :: packets :: _ => [packets.trimEndBy (· = 'p')]
  | _ => []

/-- The tokens of a line of some kind that are read as counters. -/
def Kind.counters : Kind → List Text
  | .sent line => (sentTokens line).map (·.2)
  | .backlog line => backlogTokens line
  | _ => []

/-- The row that a line adds to the table of the tins. -/
def Kind.row? : Kind → Option (Text × List Text)
  | .row key values => some (key, values)
  | _ => none

/-- The names that a line gives the tins. -/
def Kind.names? : Kind → Option (List Text)
  | .tinNames words => some (TinTable.joinNames words)
  | _ => none

/-- The kinds of some lines; `inTable` tells whether the header of a tin table came before them. -/
def kinds (inTable : Bool) : List Text → List Kind
  | [] => []
  | line :: lines =>
    classify inTable line :: kinds (inTable || (classify inTable line).names?.isSome) lines

theorem succeeds_sent {line : Text} :
    Succeeds (sent line) ↔ ∀ token ∈ (sentTokens line).map (·.2), Counter.Legible token := by
  rw [sent_eq, succeeds_mapM, List.forall_mem_map]
  refine forall₂_congr fun c _ => succeeds_map.trans ?_
  exact (succeeds_bind_pure _).trans Counter.succeeds_read

theorem succeeds_backlog? {line : Text} :
    Succeeds (backlog? line) ↔ ∀ token ∈ backlogTokens line, Counter.Legible token := by
  unfold backlog? backlogTokens
  match line.words with
  | _ :: bytes :: packets :: _ =>
    rw [List.forall_mem_singleton]
    exact (succeeds_bind_pure _).trans Counter.succeeds_read
  | [] | [_] | [_, _] => exact iff_of_true ⟨none, rfl⟩ (List.forall_mem_nil _)

end Line

/-! ## Drafts -/

namespace Draft

open Line (Kind)

/-- Whether a line can be added does not depend on the lines in front of it. -/
theorem succeeds_add (d : Draft) (k : Kind) :
    Succeeds (d.add k) ↔ ∀ token ∈ k.counters, Counter.Legible token := by
  cases k with
  | sent line => exact succeeds_map.trans Line.succeeds_sent
  | backlog line => exact succeeds_map.trans Line.succeeds_backlog?
  | _ => exact iff_of_true ⟨_, rfl⟩ (List.forall_mem_nil _)

/-- What a line adds to the table of the tins. -/
theorem table_add {d d' : Draft} {k : Kind} (h : d.add k = .ok d') :
    d'.rows = d.rows ++ k.row?.toList ∧ d'.names = k.names?.getD d.names ∧
      d'.inTable = (d.inTable || k.names?.isSome) := by
  cases k with
  | sent line =>
    obtain ⟨changes, -, rfl⟩ := map_eq_ok.mp h
    simp [Kind.row?, Kind.names?, setTotals]
  | backlog line =>
    obtain ⟨backlog, -, rfl⟩ := map_eq_ok.mp h
    cases backlog <;> simp [Kind.row?, Kind.names?, setTotals]
  | memory line =>
    obtain rfl := Except.ok.inj h
    cases Line.memory? line <;> simp [Kind.row?, Kind.names?]
  | tinNames words =>
    obtain rfl := Except.ok.inj h
    simp [Kind.row?, Kind.names?]
  | _ =>
    obtain rfl := Except.ok.inj h
    simp [Kind.row?, Kind.names?]

/-- Reading lines is adding what their kinds add. -/
theorem foldlM_read : ∀ (lines : List Text) (d : Draft),
    lines.foldlM read d = (Line.kinds d.inTable lines).foldlM add d
  | [], _ => rfl
  | line :: lines, d => by
    rw [Line.kinds, List.foldlM_cons, List.foldlM_cons, read]
    cases hadd : d.add (Line.classify d.inTable line) with
    | error e => rfl
    | ok d' =>
      have hinTable := (table_add hadd).2.2
      show lines.foldlM read d' = _
      rw [foldlM_read lines d', hinTable]
      rfl

/-- The rows and the names of the tins that some lines give. -/
theorem table_foldlM : ∀ {kinds : List Kind} {d d' : Draft}, kinds.foldlM add d = .ok d' →
    d'.rows = d.rows ++ kinds.filterMap Kind.row? ∧
      d'.names = (kinds.filterMap Kind.names?).getLast?.getD d.names
  | [], d, d', h => by
    obtain rfl := Except.ok.inj h
    simp
  | k :: kinds, d, d', h => by
    rw [List.foldlM_cons] at h
    obtain ⟨d₁, hadd, h⟩ := bind_eq_ok.mp h
    obtain ⟨hrows, hnames, -⟩ := table_add hadd
    obtain ⟨hrows', hnames'⟩ := table_foldlM h
    rw [hrows', hnames', hrows, hnames]
    constructor
    · cases hk : k.row? <;> simp [hk]
    · cases hk : k.names? <;> simp [hk, List.getLast?_cons]

end Draft

/-! ## Tables -/

namespace TinCounters

theorem succeeds_read {f : TinCounter → Except NumberError Int} :
    Succeeds (read f) ↔ ∀ c, Succeeds (f c) := by
  rw [read, succeeds_foldlM (P := fun c => Succeeds (f c)) fun _ _ => succeeds_map]
  exact forall_congr' fun c => forall_prop_of_true c.mem_all

end TinCounters

namespace TinTable

/-- The cells of a table that are read as counters, column by column. -/
def counters (names : List Text) (rows : Rows) : List Text :=
  names.zipIdx.flatMap fun (_, column) => TinCounter.all.map fun c => cell rows c.keyword column

theorem succeeds_tin {rows : Rows} {name : Text} {column : Nat} : Succeeds (tin rows name column) ↔
    ∀ token ∈ TinCounter.all.map fun c => cell rows c.keyword column, Counter.Legible token := by
  rw [tin, succeeds_bind_pure, TinCounters.succeeds_read, List.forall_mem_map]
  refine forall_congr' fun c => ?_
  rw [forall_prop_of_true c.mem_all, succeeds_map, succeeds_bind_pure, Counter.succeeds_read]

theorem succeeds_assemble {names : List Text} {rows : Rows} : Succeeds (assemble names rows) ↔
    ∀ token ∈ counters names rows, Counter.Legible token := by
  rw [assemble, counters, succeeds_mapM, List.forall_mem_flatMap]
  exact forall₂_congr fun _ _ => succeeds_tin

end TinTable

/-! ## Blocks -/

namespace Block

/-- The kinds of the lines behind the header of a block. -/
def kinds (lines : List Text) : List Line.Kind := Line.kinds false (lines.drop 1)

/-- The tokens of a block that are read as counters, on its lines and in its table of tins. -/
def counters (lines : List Text) : List Text :=
  (kinds lines).flatMap Line.Kind.counters ++
    TinTable.counters (((kinds lines).filterMap Line.Kind.names?).getLast?.getD [])
      ((kinds lines).filterMap Line.Kind.row?)

/-- **A block can be read** exactly when its counters can. -/
theorem succeeds_readLines {t : Timestamp} {lines : List Text} :
    Succeeds (readLines t lines) ↔ ∀ token ∈ counters lines, Counter.Legible token := by
  obtain ⟨hnames, hrows, hinTable⟩ := Draft.table_ofHeader t (lines.headD [])
  rw [readLines, Draft.foldlM_read, hinTable, counters, List.forall_mem_append,
    List.forall_mem_flatMap]
  refine (succeeds_bind_and fun d hd => ?_).trans
    (and_congr_left' (succeeds_foldlM Draft.succeeds_add))
  obtain ⟨hrows', hnames'⟩ := Draft.table_foldlM hd
  rw [hrows, List.nil_append] at hrows'
  rw [hnames] at hnames'
  rw [Draft.finish, succeeds_map, TinTable.succeeds_assemble, hrows', hnames']
  rfl

/-- Whether the block is one of a CAKE queue. -/
def isCake (lines : List Text) : Bool := (attachment? (lines.headD [])).isSome

theorem succeeds_read? {t : Timestamp} {lines : List Text} : Succeeds (read? t lines) ↔
    (isCake lines = true → ∀ token ∈ counters lines, Counter.Legible token) := by
  unfold read? isCake
  cases attachment? (lines.headD []) with
  | none => exact iff_of_true (succeeds_ok _) nofun
  | some attachment =>
    rw [succeeds_map, succeeds_readLines, Option.isSome_some, forall_prop_of_true rfl]

end Block

/-! ## Reports -/

namespace Report

/-- The tokens of a report that are read as counters. -/
def counters (report : Text) : List Text :=
  ((blocks report).filter Block.isCake).flatMap Block.counters

theorem succeeds_cakeBlocks {t : Timestamp} {report : Text} :
    Succeeds (cakeBlocks t report) ↔ ∀ token ∈ counters report, Counter.Legible token := by
  rw [cakeBlocks, succeeds_map, succeeds_mapM, counters, List.forall_mem_flatMap]
  simp only [Block.succeeds_read?, List.mem_filter, and_imp]

/-- **A report that can be read**: none of its counters is spoiled, and the sizes of the queues under
each parent can be added up. -/
structure Legible (t : Timestamp) (report : Text) : Prop where
  counters : ∀ token ∈ counters report, Counter.Legible token
  sizes : ∀ blocks, cakeBlocks t report = .ok blocks →
    ∀ k, MultiQueue.hasParent blocks k = true → MultiQueue.Mergeable (MultiQueue.children blocks k)

theorem succeeds_snapshots {t : Timestamp} {report : Text} :
    Succeeds (snapshots t report) ↔ Legible t report := by
  rw [snapshots, succeeds_bind]
  constructor
  · rintro ⟨blocks, hblocks, hmerge⟩
    refine ⟨succeeds_cakeBlocks.mp ⟨blocks, hblocks⟩, fun blocks' hblocks' => ?_⟩
    obtain rfl := Except.ok.inj (hblocks.symm.trans hblocks')
    exact MultiQueue.succeeds_merge.mp hmerge
  · rintro ⟨hcounters, hsizes⟩
    obtain ⟨blocks, hblocks⟩ := succeeds_cakeBlocks.mpr hcounters
    exact ⟨blocks, hblocks, MultiQueue.succeeds_merge.mpr (hsizes blocks hblocks)⟩

/-- **Exactly the legible reports give snapshots**, be they given as text or as octets. A counter or a
size that is not made of digits, or is missing, counts as zero. -/
theorem snapshots_iff_legible (t : Timestamp) :
    (∀ report : Text, (∃ l, snapshots t report = .ok l) ↔ Legible t report) ∧
      (∀ report : Octets,
        (∃ l, snapshots t (textOf report) = .ok l) ↔ Legible t (textOf report)) ∧
      (∀ token, ¬ MadeOfDigits (Counter.numeral token) → Counter.read token = .ok 0) ∧
      (∀ token, ¬ MadeOfDigits (Size.numeral token) → Size.read token = .ok 0) :=
  ⟨fun _ => succeeds_snapshots, fun _ => succeeds_snapshots, fun _ => Counter.read_of_not_digits,
    fun _ => Size.read_of_not_digits⟩

/-- A report whose byte counter is a word. -/
def wordReport : Text := "qdisc cake 1: dev e root\n Sent none bytes 0 pkt\n"

/-- A word in place of a counter counts as zero and leaves the report legible. -/
theorem snapshots_iff_legible_wordReport :
    (∃ l, snapshots 0 wordReport = .ok l) ∧ Legible 0 wordReport ∧
      ¬ MadeOfDigits (Counter.numeral "none") ∧ Counter.read "none" = .ok 0 := by
  obtain ⟨htext, -, hcounter, -⟩ := snapshots_iff_legible 0
  have hread : ∃ l, snapshots 0 wordReport = .ok l :=
    ⟨[{ interface := "e", handle := "1", rawHeader := "qdisc cake 1: dev e root" }],
      by decide +kernel⟩
  have hword : ¬ MadeOfDigits (Counter.numeral "none") := by
    rintro ⟨-, hdigits⟩
    exact absurd (hdigits 'n' (by decide)) (by decide)
  exact ⟨hread, (htext wordReport).mp hread, hword, hcounter "none" hword⟩

/-- A report whose byte counter is a superscript two, a digit without decimal value. -/
def superscriptReport : Text := "qdisc cake 1: dev e root\n Sent ² bytes 0 pkt\n"

/-- One odd digit keeps the whole report from being read. -/
theorem superscriptReport_unreadable :
    ¬ ∃ l, snapshots 0 superscriptReport = .ok l := by
  rintro ⟨l, hl⟩
  have herror : snapshots 0 superscriptReport = .error (.notANumeral "²") := by decide +kernel
  rw [herror] at hl
  cases hl

end Report

end CakeMonitor
