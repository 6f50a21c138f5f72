import CakeMonitor.Proofs.Report.Legible
import CakeMonitor.Proofs.Report.PrintedTable

/-!
# The table of the tins and the other lines

A block has lines in front of its tin table, and the table: its header and all lines behind it. What a
line says depends on which of the two it is in, since `backlog` begins a line of the queue in front of
the table and a row of the tins in it. Neither part touches what the other one says.

* `Line.isTinHeader`, `Line.row?`: the lines that make up a table.
* `Block.front`, `Block.table`, `Block.kinds_eq`: the two parts, and the kinds of their lines.
* `TinTable.Shows`, `Tabulated`: what a table shows for a key in a column, and the tins that it makes up.
* `Draft.keepRows_foldlM`: rows may be left out before the lines are read or behind that.
* `Block.table_apart`: rows change nothing but the tins, and lines in front of the table do not change
  those.
-/

namespace CakeMonitor

/-! ## The lines of a table -/

namespace Line

/-- The line is the header of a tin table. -/
def isTinHeader (line : Text) : Bool := line.words.head?.any beginsTable

/-- The key and the values of a row, that is of a line of two words or more that begins in lower
case. -/
def row? (line : Text) : Option (Text × List Text) :=
  match line.words with
  | key :: value :: values => if beginsLower key then some (key, value :: values) else none
  | _ => none

/-- A line with a label begins with the label's first letter. -/
theorem head_of_labelled? {line : Text} {k : Kind} (h : labelled? line.trim = some k) :
    ∃ c ∈ labelInitials, ∃ z ws, line.words = (c :: z) :: ws := by
  cases ht : line.trim with
  | nil =>
    rw [ht] at h
    cases h
  | cons c t =>
    rw [ht] at h
    have hc : c ∈ labelInitials := by
      by_contra hnot
      rw [labelled?_eq_none hnot] at h
      cases h
    have hsolid : ∀ d ∈ labelInitials, d.isBlank = false := by decide
    obtain ⟨z, ws, hwords⟩ := Text.words_cons_solid (hsolid c hc) t
    rw [← ht, Text.words_trim] at hwords
    exact ⟨c, hc, z, ws, hwords⟩

/-- The header of a table has no label. -/
theorem labelled?_of_isTinHeader {line : Text} (h : isTinHeader line = true) :
    labelled? line.trim = none := by
  cases hk : labelled? line.trim with
  | none => rfl
  | some k =>
    obtain ⟨c, hc, z, ws, hwords⟩ := head_of_labelled? hk
    rw [isTinHeader, hwords] at h
    have hmem : c :: z ∈ tinWords := of_decide_eq_true h
    have hinitial : ∀ w ∈ tinWords, ∀ d ∈ w.head?, d ∉ labelInitials := by decide
    exact absurd hc (hinitial _ hmem c rfl)

/-- A line with a label is no part of a table. -/
theorem table_labelled? {t : Text} {k : Kind} (h : labelled? t = some k) :
    k.row? = none ∧ k.names? = none := by
  unfold labelled? at h
  repeat' split at h
  all_goals cases h
  all_goals exact ⟨rfl, rfl⟩

/-- A line that is no row. -/
theorem row?_beside (t : Text) (words : List Text) (begins : Bool) :
    ((labelled? t).getD (if begins = true then .tinNames words else .other)).row? = none := by
  cases hk : labelled? t with
  | none => cases begins <;> rfl
  | some k => exact (table_labelled? hk).1

/-- In front of a table there are no rows. -/
theorem row?_classify_false (line : Text) : (classify false line).row? = none := by
  unfold classify
  cases line.words with
  | nil => rfl
  | cons w ws => exact row?_beside line.trim (w :: ws) (beginsTable w)

/-- In the table rows come before all other kinds of lines. -/
theorem row?_classify_true (line : Text) : (classify true line).row? = row? line := by
  unfold classify row?
  match line.words with
  | [] => rfl
  | [w] => exact row?_beside line.trim [w] (beginsTable w)
  | w :: v :: vs =>
    by_cases hlower : beginsLower w = true
    · simp [hlower, Kind.row?]
    · have hnone := row?_beside line.trim (w :: v :: vs) (beginsTable w)
      simpa [hlower] using hnone

/-- The header of a table is one in the table and outside. -/
theorem classify_of_isTinHeader {line : Text} (h : isTinHeader line = true) (inTable : Bool) :
    classify inTable line = .tinNames line.words := by
  have hlabel := labelled?_of_isTinHeader h
  have hlower : ∀ w ∈ tinWords, beginsLower w = false := by decide
  unfold classify
  unfold isTinHeader at h
  match line.words, h with
  | w :: ws, h =>
    have hw : beginsTable w = true := h
    simp [hlabel, hw, hlower w (of_decide_eq_true hw)]

/-- Other lines give no names. -/
theorem names?_classify_of_not {line : Text} (h : isTinHeader line = false) (inTable : Bool) :
    (classify inTable line).names? = none := by
  unfold classify
  unfold isTinHeader at h
  match line.words, h with
  | [], _ => rfl
  | w :: ws, h =>
    have hw : beginsTable w = false := h
    have hbeside : ((labelled? line.trim).getD .other).names? = none := by
      cases hk : labelled? line.trim with
      | none => rfl
      | some k => exact (table_labelled? hk).2
    dsimp only
    split
    · rfl
    · simpa [hw] using hbeside

/-- Behind the header of a table all lines are read as lines of the table. -/
theorem kinds_true : ∀ lines : List Text, kinds true lines = lines.map (classify true)
  | [] => rfl
  | line :: lines => by
    rw [kinds, Bool.true_or, kinds_true lines]
    rfl

/-- **The kinds of lines**: those in front of the first header of a table, and those from it on. -/
theorem kinds_false : ∀ lines : List Text, kinds false lines
    = (lines.takeWhile fun l => !isTinHeader l).map (classify false)
      ++ (lines.dropWhile fun l => !isTinHeader l).map (classify true)
  | [] => rfl
  | line :: lines => by
    cases h : isTinHeader line with
    | true =>
      rw [kinds, classify_of_isTinHeader h]
      simp [h, classify_of_isTinHeader, Kind.names?, kinds_true]
    | false =>
      rw [kinds, names?_classify_of_not h, Option.isSome_none, Bool.or_false, kinds_false lines]
      simp [h]

end Line

/-! ## The two parts of a block -/

namespace Block

/-- The lines in front of the table of the tins. -/
def front (lines : List Text) : List Text := (lines.drop 1).takeWhile fun l => !Line.isTinHeader l

/-- The table of the tins: its first header and all lines behind that. -/
def table (lines : List Text) : List Text := (lines.drop 1).dropWhile fun l => !Line.isTinHeader l

theorem kinds_eq (lines : List Text) : kinds lines
    = (front lines).map (Line.classify false) ++ (table lines).map (Line.classify true) :=
  Line.kinds_false (lines.drop 1)

/-- The tin names in the last header of the table. -/
def tinNames (lines : List Text) : List Text :=
  (((table lines).filter Line.isTinHeader).getLast?.map fun l => TinTable.joinNames l.words).getD []

/-- The rows of the table. -/
def rows (lines : List Text) : TinTable.Rows := (table lines).filterMap Line.row?

/-- What only lines of a table have. -/
theorem filterMap_kinds {α : Type} {f : Line.Kind → Option α} {lines : List Text}
    (h : ∀ l ∈ front lines, f (Line.classify false l) = none) :
    (kinds lines).filterMap f = (table lines).filterMap fun l => f (Line.classify true l) := by
  have hfront : (front lines).filterMap (f ∘ Line.classify false) = [] :=
    List.filterMap_eq_nil_iff.mpr h
  rw [kinds_eq, List.filterMap_append, List.filterMap_map, List.filterMap_map, hfront,
    List.nil_append]
  rfl

theorem filterMap_names?_kinds (lines : List Text) : (kinds lines).filterMap Line.Kind.names?
    = ((table lines).filter Line.isTinHeader).map fun l => TinTable.joinNames l.words := by
  have hfront : ∀ l ∈ front lines, (Line.classify false l).names? = none := fun l hl =>
    Line.names?_classify_of_not (by simpa using List.mem_takeWhile_imp hl) false
  have htable (l : Text) : (Line.classify true l).names?
      = if Line.isTinHeader l = true then some (TinTable.joinNames l.words) else none := by
    cases h : Line.isTinHeader l with
    | true => rw [Line.classify_of_isTinHeader h]; rfl
    | false => exact Line.names?_classify_of_not h true
  rw [filterMap_kinds hfront, ← List.filterMap_eq_map, List.filterMap_filter]
  exact List.filterMap_congr fun l _ => htable l

theorem filterMap_row?_kinds (lines : List Text) :
    (kinds lines).filterMap Line.Kind.row? = rows lines := by
  rw [filterMap_kinds fun l _ => Line.row?_classify_false l]
  exact List.filterMap_congr fun l _ => Line.row?_classify_true l

/-- Reading a block is adding what its lines add. -/
theorem readLines_eq (t : Timestamp) (lines : List Text) : readLines t lines
    = (kinds lines).foldlM Draft.add (Draft.ofHeader t (lines.headD [])) >>= Draft.finish := by
  obtain ⟨-, -, hinTable⟩ := Draft.table_ofHeader t (lines.headD [])
  rw [readLines, Draft.foldlM_read, hinTable]
  rfl

/-- **The tins of a block** are those of its rows under the names in its last header. -/
theorem assemble_readLines {t : Timestamp} {lines : List Text} {s : Snapshot}
    (h : readLines t lines = .ok s) : TinTable.assemble (tinNames lines) (rows lines) = .ok s.tins := by
  obtain ⟨hnames, hrows, -⟩ := Draft.table_ofHeader t (lines.headD [])
  rw [readLines_eq] at h
  obtain ⟨d, hd, h⟩ := bind_eq_ok.mp h
  obtain ⟨tins, htins, rfl⟩ := map_eq_ok.mp h
  obtain ⟨hrows', hnames'⟩ := Draft.table_foldlM hd
  rw [hrows, List.nil_append, filterMap_row?_kinds] at hrows'
  rw [hnames, filterMap_names?_kinds, List.getLast?_map] at hnames'
  rw [hrows', hnames'] at htins
  exact htins

end Block

/-! ## What a table shows -/

namespace TinCounters

/-- Counters that were read are those that were to be read. -/
theorem get_of_read {f : TinCounter → Except NumberError Int} {t : TinCounters}
    (h : read f = .ok t) (c : TinCounter) : f c = .ok (t.get c) := by
  choose g hg using succeeds_read.mp ⟨t, h⟩
  obtain rfl := Except.ok.inj (h.symm.trans (PrintedQueue.read_tinCounters hg))
  rw [hg, get_ofFn]

end TinCounters

namespace TinTable

/-- What rows show for a key in a column: the value there in the last row with that key, and nothing when
that row is too short or there is none. -/
inductive Shows (rows : Rows) (key : Text) (column : Nat) : Text → Prop
  | value {before after : Rows} {values : List Text} {v : Text}
      (last : rows = before ++ (key, values) :: after) (only : ∀ r ∈ after, r.1 ≠ key)
      (here : values[column]? = some v) : Shows rows key column v
  | short {before after : Rows} {values : List Text}
      (last : rows = before ++ (key, values) :: after) (only : ∀ r ∈ after, r.1 ≠ key)
      (here : values.length ≤ column) : Shows rows key column []
  | absent (none : ∀ r ∈ rows, r.1 ≠ key) : Shows rows key column []

theorem row_append_self (rows : Rows) (key : Text) (values : List Text) :
    row key (rows ++ [(key, values)]) = values := by
  rw [row, List.filter_append, List.filter_cons_of_pos (by simp), List.filter_nil,
    List.getLast?_concat]
  rfl

theorem row_append_of_ne {r : Text × List Text} {key : Text} (h : r.1 ≠ key) (rows : Rows) :
    row key (rows ++ [r]) = row key rows := by
  rw [row, List.filter_append, List.filter_cons_of_neg (by simpa using h), List.filter_nil,
    List.append_nil, row]

/-- A key without row, or the last row with it. -/
theorem row_cases (key : Text) (rows : Rows) :
    (∀ r ∈ rows, r.1 ≠ key) ∧ row key rows = [] ∨
      ∃ before values after, rows = before ++ (key, values) :: after ∧ (∀ r ∈ after, r.1 ≠ key) ∧
        row key rows = values := by
  induction rows using List.reverseRecOn with
  | nil => exact .inl ⟨List.forall_mem_nil _, rfl⟩
  | append_singleton rows r ih =>
    by_cases hr : r.1 = key
    · obtain ⟨k, values⟩ := r
      obtain rfl : k = key := hr
      exact .inr ⟨rows, values, [], rfl, List.forall_mem_nil _, row_append_self rows k values⟩
    · rw [row_append_of_ne hr]
      rcases ih with ⟨hnone, hrow⟩ | ⟨before, values, after, rfl, hafter, hrow⟩
      · exact .inl ⟨List.forall_mem_append.mpr ⟨hnone, List.forall_mem_singleton.mpr hr⟩, hrow⟩
      · exact .inr ⟨before, values, after ++ [r], by simp,
          List.forall_mem_append.mpr ⟨hafter, List.forall_mem_singleton.mpr hr⟩, hrow⟩

theorem shows_cell (rows : Rows) (key : String) (column : Nat) :
    Shows rows key column (cell rows key column) := by
  unfold cell
  rcases row_cases key rows with ⟨hnone, hrow⟩ | ⟨before, values, after, hrows, hafter, hrow⟩
  · rw [hrow]
    exact .absent hnone
  · rw [hrow]
    cases hv : values[column]? with
    | none => exact .short hrows hafter (List.getElem?_eq_none_iff.mp hv)
    | some v => exact .value hrows hafter hv

/-- The tins are those of a table with these names and rows: one for each name, in the order of the
columns, with what the table shows for each figure and each counter. -/
structure Tabulated (names : List Text) (rows : Rows) (tins : List Tin) : Prop where
  names : tins.map (·.name) = names
  labels : ∀ i tin, tins[i]? = some tin → ∀ l : TinLabel, Shows rows l.keyword i (tin.label l)
  counts : ∀ i tin, tins[i]? = some tin → ∀ c : TinCounter, ∃ (token : Text) (n : Nat),
    Shows rows c.keyword i token ∧ Counter.read token = .ok n ∧ tin.count c = (n : Int) ∧
      (token = [] → tin.count c = 0)

theorem tabulated_of_assemble {names : List Text} {rows : Rows} {tins : List Tin}
    (h : assemble names rows = .ok tins) : Tabulated names rows tins := by
  have hcolumn (i : Nat) (t : Tin) (ht : tins[i]? = some t) :
      ∃ name, tin rows name i = .ok t := by
    obtain ⟨name, -, hname⟩ := getElem?_of_mapM_zipIdx h ht
    exact ⟨name, hname⟩
  refine ⟨?_, fun i t ht l => ?_, fun i t ht c => ?_⟩
  · rw [map_eq_of_forall₂ (f := Prod.fst) ?_ (forall₂_of_mapM h), List.zipIdx_map_fst]
    intro b t hb
    obtain ⟨counters, -, hb⟩ := bind_eq_ok.mp hb
    obtain rfl := Except.ok.inj hb
    rfl
  · obtain ⟨name, hname⟩ := hcolumn i t ht
    obtain ⟨counters, -, hname⟩ := bind_eq_ok.mp hname
    obtain rfl := Except.ok.inj hname
    rw [Tin.label, TinLabels.get_ofFn]
    exact shows_cell rows l.keyword i
  · obtain ⟨name, hname⟩ := hcolumn i t ht
    obtain ⟨counters, hcounters, hname⟩ := bind_eq_ok.mp hname
    obtain rfl := Except.ok.inj hname
    obtain ⟨_, hvalue, hcount⟩ := map_eq_ok.mp (TinCounters.get_of_read hcounters c)
    obtain ⟨n, hn, hvalue⟩ := bind_eq_ok.mp hvalue
    obtain rfl := Except.ok.inj hvalue
    refine ⟨_, n, shows_cell rows c.keyword i, hn, hcount.symm, fun hempty => ?_⟩
    rw [hempty] at hn
    obtain rfl := Except.ok.inj hn
    exact hcount.symm

end TinTable

/-! ## Blocks that differ in rows -/

/-- The line is no row, or a row with one of these keys. -/
def Line.stays (p : Text → Bool) (line : Text) : Bool := (row? line).all fun r => p r.1

/-- The same of a kind of line. -/
def Line.Kind.stays (p : Text → Bool) (k : Kind) : Bool := k.row?.all fun r => p r.1

namespace Draft

open Line (Kind)

/-- The draft with the rows of these keys only. -/
def keepRows (p : Text → Bool) (d : Draft) : Draft := { d with rows := d.rows.filter fun r => p r.1 }

/-- A row that is left out need not be read, and everything else is read as before. -/
theorem keepRows_add (p : Text → Bool) (d : Draft) (k : Kind) : (d.add k).map (keepRows p)
    = if k.stays p = true then (d.keepRows p).add k else .ok (d.keepRows p) := by
  cases k with
  | row key values =>
    cases hp : p key <;> simp [add, keepRows, Kind.stays, Kind.row?, hp, Except.map]
  | sent line =>
    show (d.add (.sent line)).map (keepRows p) = (d.keepRows p).add (.sent line)
    simp only [add]
    cases Line.sent line <;> rfl
  | backlog line =>
    show (d.add (.backlog line)).map (keepRows p) = (d.keepRows p).add (.backlog line)
    simp only [add]
    rcases Line.backlog? line with _ | (_ | _) <;> rfl
  | memory line =>
    show (d.add (.memory line)).map (keepRows p) = (d.keepRows p).add (.memory line)
    simp only [add]
    cases Line.memory? line <;> rfl
  | _ => rfl

/-- **Rows may be left out before the lines are read or behind that.** -/
theorem keepRows_foldlM (p : Text → Bool) : ∀ (kinds : List Kind) (d : Draft),
    (kinds.foldlM add d).map (keepRows p) = (kinds.filter (Kind.stays p)).foldlM add (d.keepRows p)
  | [], _ => rfl
  | k :: kinds, d => by
    have hstep := keepRows_add p d k
    by_cases hk : k.stays p = true
    · rw [if_pos hk] at hstep
      rw [List.foldlM_cons, List.filter_cons_of_pos hk, List.foldlM_cons, ← hstep]
      cases d.add k with
      | error e => rfl
      | ok d' => exact keepRows_foldlM p kinds d'
    · rw [if_neg hk] at hstep
      obtain ⟨d', hadd, hkeep⟩ := map_eq_ok.mp hstep
      rw [foldlM_cons_ok hadd, keepRows_foldlM p kinds d', hkeep, List.filter_cons_of_neg hk]

end Draft

namespace TinTable

/-- The key is that of a figure or a counter. -/
def isKeyword (key : Text) : Bool :=
  key ∈ TinLabel.all.map (fun l => (l.keyword : Text)) ++
    TinCounter.all.map (fun c => (c.keyword : Text))

theorem isKeyword_label (l : TinLabel) : isKeyword l.keyword = true := by cases l <;> decide

theorem isKeyword_counter (c : TinCounter) : isKeyword c.keyword = true := by cases c <;> decide

theorem row_filter {p : Text → Bool} {key : Text} (h : p key = true) (rows : Rows) :
    row key (rows.filter fun r => p r.1) = row key rows := by
  have hsame : ∀ r : Text × List Text, (decide (r.1 = key) && p r.1) = decide (r.1 = key) := by
    intro r
    by_cases hr : r.1 = key <;> simp [hr, h]
  simp only [row, List.filter_filter, hsame]

/-- Rows of other keys are without effect. -/
theorem assemble_filter (names : List Text) (rows : Rows) :
    assemble names (rows.filter fun r => isKeyword r.1) = assemble names rows := by
  have hlabel (l : TinLabel) := row_filter (isKeyword_label l) rows
  have hcounter (c : TinCounter) := row_filter (isKeyword_counter c) rows
  simp only [assemble, tin, cell, hlabel, hcounter]

end TinTable

theorem Draft.finish_keepRows (d : Draft) : (d.keepRows TinTable.isKeyword).finish = d.finish := by
  rw [finish, finish]
  show (TinTable.assemble d.names (d.rows.filter _)).map _ = _
  rw [TinTable.assemble_filter]
  rfl

theorem Draft.bind_finish_keepRows (x : Except NumberError Draft) :
    x >>= Draft.finish = x.map (Draft.keepRows TinTable.isKeyword) >>= Draft.finish := by
  cases x with
  | error e => rfl
  | ok d => exact d.finish_keepRows.symm

namespace Block

/-- Blocks with the same first line have the same header. -/
theorem headD_eq_of_head? {lines lines' : List Text} (h : lines.head? = lines'.head?) :
    lines.headD [] = lines'.headD [] := by
  rw [List.headD_eq_head?_getD, List.headD_eq_head?_getD, h]

/-- The blocks have the same lines but for rows of the table; those with these keys are the same too. -/
structure DifferInRows (p : Text → Bool) (lines lines' : List Text) : Prop where
  header : lines.head? = lines'.head?
  front : front lines = front lines'
  table : (table lines).filter (Line.stays p) = (table lines').filter (Line.stays p)

theorem filter_kinds (p : Text → Bool) (lines : List Text) : (kinds lines).filter (Line.Kind.stays p)
    = (front lines).map (Line.classify false)
      ++ ((table lines).filter (Line.stays p)).map (Line.classify true) := by
  have hfront (l : Text) : (Line.classify false l).stays p = true := by
    rw [Line.Kind.stays, Line.row?_classify_false]
    rfl
  have htable (l : Text) : (Line.classify true l).stays p = Line.stays p l := by
    rw [Line.Kind.stays, Line.row?_classify_true]
    rfl
  rw [kinds_eq, List.filter_append, List.filter_map, List.filter_map]
  congr 2
  · exact List.filter_eq_self.mpr fun l _ => hfront l
  · exact List.filter_congr fun l _ => htable l

/-- The drafts of such blocks are the same but for their rows. -/
theorem DifferInRows.keepRows {p : Text → Bool} {lines lines' : List Text}
    (h : DifferInRows p lines lines') (d : Draft) :
    ((kinds lines).foldlM Draft.add d).map (Draft.keepRows p)
      = ((kinds lines').foldlM Draft.add d).map (Draft.keepRows p) := by
  rw [Draft.keepRows_foldlM, Draft.keepRows_foldlM, filter_kinds, filter_kinds, h.front, h.table]

/-- **Rows change nothing but the tins.** -/
theorem DifferInRows.rest_eq {p : Text → Bool} {lines lines' : List Text}
    (h : DifferInRows p lines lines') {t : Timestamp} {s s' : Snapshot}
    (hs : readLines t lines = .ok s) (hs' : readLines t lines' = .ok s') :
    s' = { s with tins := s'.tins } := by
  rw [readLines_eq] at hs hs'
  obtain ⟨d, hd, hs⟩ := bind_eq_ok.mp hs
  obtain ⟨d', hd', hs'⟩ := bind_eq_ok.mp hs'
  have hkeep := h.keepRows (Draft.ofHeader t (lines.headD []))
  rw [hd, headD_eq_of_head? h.header, hd'] at hkeep
  have hsame : d.keepRows p = d'.keepRows p := Except.ok.inj hkeep
  have hsnapshot : (d.keepRows p).snapshot = (d'.keepRows p).snapshot :=
    congrArg Draft.snapshot hsame
  obtain ⟨tins, -, rfl⟩ := map_eq_ok.mp hs
  obtain ⟨tins', -, rfl⟩ := map_eq_ok.mp hs'
  show { d'.snapshot with tins := tins' } = { d.snapshot with tins := tins' }
  rw [show d'.snapshot = d.snapshot from hsnapshot.symm]

/-- **Rows of unknown keys change nothing at all.** -/
theorem DifferInRows.readLines_eq {lines lines' : List Text}
    (h : DifferInRows TinTable.isKeyword lines lines') (t : Timestamp) :
    readLines t lines = readLines t lines' := by
  rw [Block.readLines_eq, Block.readLines_eq, Draft.bind_finish_keepRows, h.keepRows,
    ← Draft.bind_finish_keepRows, headD_eq_of_head? h.header]

/-- **The table of the tins and the other lines do not interfere.** Where blocks can be read: rows of the
table change no part of a snapshot but its tins; the lines in front of the table change nothing about the
tins; the tins are what the rows show under the names in the last header; and rows of unknown keys are
without effect. -/
theorem table_apart (t : Timestamp) :
    (∀ lines lines' s s', DifferInRows (fun _ => false) lines lines' → readLines t lines = .ok s →
      readLines t lines' = .ok s' → s' = { s with tins := s'.tins }) ∧
    (∀ lines lines' s s', table lines = table lines' → readLines t lines = .ok s →
      readLines t lines' = .ok s' → s'.tins = s.tins) ∧
    (∀ lines s, readLines t lines = .ok s →
      TinTable.Tabulated (tinNames lines) (rows lines) s.tins) ∧
    ∀ lines lines', DifferInRows TinTable.isKeyword lines lines' →
      readLines t lines = readLines t lines' := by
  refine ⟨fun lines lines' s s' h hs hs' => h.rest_eq hs hs', fun lines lines' s s' h hs hs' => ?_,
    fun lines s hs => TinTable.tabulated_of_assemble (assemble_readLines hs),
    fun lines lines' h => h.readLines_eq t⟩
  have htins := assemble_readLines hs
  have htins' := assemble_readLines hs'
  rw [tinNames, rows, ← h] at htins'
  exact Except.ok.inj (htins'.symm.trans htins)

/-- A block with two headers in its table, rows of different lengths and one row twice. -/
def twiceTabled : List Text :=
  ["qdisc cake 1: dev e root", " Sent 5 bytes 1 pkt", " backlog 3b 1p", "   Bulk  Best Effort",
   "  thresh  1bit  2bit", "  backlog  7b", "   Tin 0  Voice", "  thresh  9bit", "  pkts  4  5  6"]

/-- The same with other rows. -/
def otherRows : List Text :=
  ["qdisc cake 1: dev e root", " Sent 5 bytes 1 pkt", " backlog 3b 1p", "   Bulk  Best Effort",
   "  memory used: 1b of 2b", "   Tin 0  Voice", "  backlog  8b 9b"]

/-- The same with other lines in front of the table. -/
def otherFront : List Text :=
  ["qdisc cake 1: dev e root", " memory used: 1b of 2b", "   Bulk  Best Effort",
   "  thresh  1bit  2bit", "  backlog  7b", "   Tin 0  Voice", "  thresh  9bit", "  pkts  4  5  6"]

/-- The same with a row of an unknown key. -/
def oddRow : List Text :=
  ["qdisc cake 1: dev e root", " Sent 5 bytes 1 pkt", " backlog 3b 1p", "   Bulk  Best Effort",
   "  thresh  1bit  2bit", "  backlog  7b", "  min/max  1 2", "   Tin 0  Voice", "  thresh  9bit",
   "  pkts  4  5  6"]

/-- What the first of these blocks says: the last header names the tins, the last row of a key counts, and
a short row ends early. -/
def twiceTabledSnapshot : Snapshot :=
  { interface := "e", handle := "1", rawHeader := "qdisc cake 1: dev e root"
    totals := { sentBytes := 5, sentPkts := 1, backlogPkts := 1 }, backlogBytes := "3b"
    tins := [
      { name := "Tin 0", labels := { thresh := "9bit", backlog := "7b" }, counters := { pkts := 4 } },
      { name := "Voice", counters := { pkts := 5 } }] }

/-- Other rows, other lines in front of the table, and a row of an unknown key. -/
theorem table_apart_twiceTabled : ∃ s₁ s₂,
    readLines 0 twiceTabled = .ok twiceTabledSnapshot ∧
    readLines 0 otherRows = .ok s₁ ∧ s₁ = { twiceTabledSnapshot with tins := s₁.tins } ∧
    readLines 0 otherFront = .ok s₂ ∧ s₂.tins = twiceTabledSnapshot.tins ∧
    TinTable.Tabulated ["Tin 0", "Voice"] (rows twiceTabled) twiceTabledSnapshot.tins ∧
    readLines 0 twiceTabled = readLines 0 oddRow := by
  obtain ⟨hrows, hfront, htins, hodd⟩ := table_apart 0
  have h : readLines 0 twiceTabled = .ok twiceTabledSnapshot := by decide +kernel
  have h₁ : readLines 0 otherRows = .ok { twiceTabledSnapshot with
      tins := [{ name := "Tin 0", labels := { backlog := "8b" } },
        { name := "Voice", labels := { backlog := "9b" } }] } := by decide +kernel
  have h₂ : readLines 0 otherFront = .ok { twiceTabledSnapshot with
      totals := {}, backlogBytes := [], memoryUsed := "1b", memoryTotal := "2b" } := by decide +kernel
  have hothers : DifferInRows (fun _ => false) twiceTabled otherRows :=
    ⟨rfl, by decide +kernel, by decide +kernel⟩
  have hknown : DifferInRows TinTable.isKeyword twiceTabled oddRow :=
    ⟨rfl, by decide +kernel, by decide +kernel⟩
  have htable : table twiceTabled = table otherFront := by decide +kernel
  have hnames : tinNames twiceTabled = [("Tin 0" : Text), ("Voice" : Text)] := by decide +kernel
  exact ⟨_, _, h, h₁, hrows _ _ _ _ hothers h h₁, h₂, hfront _ _ _ _ htable h h₂,
    hnames ▸ htins _ _ h, hodd _ _ hknown⟩

end Block

end CakeMonitor
