import CakeMonitor.Proofs.Report.PrintedLines

/-!
# The printed table is read back

The header of the table gives the names of the tins, and each of its rows one figure or counter of
every tin. Assembled column by column they are the tins that were printed.

* `TinName.joinNames_words`: names of two words are put together again.
* `PrintedQueue.read_namesLine`, `PrintedQueue.foldlM_rows`: the lines of the table.
* `PrintedQueue.assemble_rows`: the tins.
* `PrintedQueue.readLines_lines`: the snapshot of a printed queue.
-/

namespace CakeMonitor

open Text (space colon spread IsWord Apart)

/-! ## The names of the tins -/

namespace TinName

theorem isWord_tinWord : ∀ w ∈ Line.tinWords, IsWord w := by decide

theorem isWord_words (n : TinName) : ∀ w ∈ n.words, IsWord w := by
  cases n with
  | bestEffort => exact (by decide : ∀ w ∈ (["Best", "Effort"] : List Text), IsWord w)
  | numbered n =>
    intro w hw
    rcases List.mem_cons.mp hw with rfl | hw
    · exact (by decide : IsWord "Tin")
    · rw [List.mem_singleton.mp hw]
      exact n.isWord
  | single word known =>
    intro w hw
    rw [List.mem_singleton.mp hw]
    exact isWord_tinWord word known

/-- The first word of a name begins the header of a table. -/
theorem head_words (n : TinName) : ∃ w ws, n.words = w :: ws ∧ w ∈ Line.tinWords := by
  cases n with
  | bestEffort => exact ⟨_, _, rfl, by decide⟩
  | numbered n => exact ⟨_, _, rfl, by decide⟩
  | single word known => exact ⟨_, _, rfl, known⟩

/-- **Names of two words are put together again.** -/
theorem joinNames_words : ∀ names : List TinName,
    TinTable.joinNames (names.flatMap words) = names.map text
  | [] => rfl
  | bestEffort :: names => by
    have ih := joinNames_words names
    rw [List.flatMap_cons, List.map_cons, ← ih]
    rfl
  | numbered n :: names => by
    have ih := joinNames_words names
    have hname : text (numbered n) = ("Tin " : Text) ++ n.text := rfl
    rw [List.flatMap_cons, List.map_cons, ← ih, hname]
    rfl
  | single word _ best tin :: names => by
    have ih := joinNames_words names
    rw [List.flatMap_cons, List.map_cons, ← ih]
    show TinTable.joinNames (word :: names.flatMap words) = word :: _
    cases names.flatMap words with
    | nil => rfl
    | cons v ws => rw [TinTable.joinNames, if_neg fun h => best h.1, if_neg tin]

end TinName

namespace PrintedQueue

/-! ## Columns -/

theorem map_snd_column (indent : Nat) (c : List Text) : (column indent c).map (·.2) = c := by
  cases c with
  | nil => rfl
  | cons w ws => rw [column, List.map_cons, Text.map_snd_single]

/-- A line of the table holds the words of its columns. -/
theorem map_snd_columns (indent : Nat) (cs : List (List Text)) :
    (columns indent cs).map (·.2) = cs.flatten := by
  cases cs with
  | nil => rfl
  | cons c cs =>
    rw [columns, List.map_append, map_snd_column, List.map_flatMap, List.flatten_cons]
    simp only [map_snd_column, List.flatMap_id']

theorem apart_column (indent : Nat) {c : List Text} (h : ∀ w ∈ c, IsWord w) :
    Apart (column indent c) := by
  cases c with
  | nil => exact Text.apart_nil
  | cons w ws =>
    obtain ⟨hw, hws⟩ := List.forall_mem_cons.mp h
    exact .cons (Nat.add_pos_right _ (gap_pos _ _)) hw (Text.apart_single hws)

theorem apart_columns (indent : Nat) {cs : List (List Text)} (h : ∀ c ∈ cs, ∀ w ∈ c, IsWord w) :
    Apart (columns indent cs) := by
  cases cs with
  | nil => exact Text.apart_nil
  | cons c cs =>
    obtain ⟨hc, hcs⟩ := List.forall_mem_cons.mp h
    refine (apart_column indent hc).append fun cell hcell => ?_
    obtain ⟨c', hc', hcell⟩ := List.mem_flatMap.mp hcell
    exact apart_column 0 (hcs c' hc') cell hcell

/-! ## The lines of the table -/

/-- A word that begins the header of a table begins with no letter of a label. -/
theorem labelled?_tinWord (t : Text) : ∀ w ∈ Line.tinWords, Line.labelled? (w ++ t) = none := by
  have hinitial : ∀ w ∈ Line.tinWords, ∃ c ∈ w.head?, c ∉ Line.labelInitials := by decide
  intro w hw
  obtain ⟨c, hc, hnot⟩ := hinitial w hw
  obtain ⟨r, rfl⟩ := List.head?_eq_some_iff.mp hc
  exact Line.labelled?_eq_none hnot (r ++ t)

variable (q : PrintedQueue)

/-- The header of the table gives the names of the tins. -/
theorem read_namesLine {d : Draft} (h : d.inTable = false) (hq : q.tins ≠ []) :
    d.read q.namesLine
      = .ok { d with names := q.tins.map fun p => p.name.text, inTable := true } := by
  obtain ⟨p, ps, hps⟩ := List.exists_cons_of_ne_nil hq
  obtain ⟨w, ws, hname, hw⟩ := p.name.head_words
  obtain ⟨n, cells, hcells⟩ :
      ∃ n cells, columns 10 (q.tins.map fun p => p.name.words) = (n, w) :: cells := by
    rw [hps, List.map_cons, hname]
    exact ⟨_, _, rfl⟩
  have happart : Apart ((n, w) :: cells) := by
    rw [← hcells]
    refine apart_columns 10 fun c hc => ?_
    obtain ⟨p, -, rfl⟩ := List.mem_map.mp hc
    exact p.name.isWord_words
  obtain ⟨⟨-, hword⟩, hrest⟩ := List.forall_mem_cons.mp happart
  have hwords : q.namesLine.words = w :: cells.map (·.2) := by
    rw [namesLine, hcells, Text.words_spread hword hrest]
  have htrim : q.namesLine.trim = w ++ spread cells := by
    simpa [namesLine, hcells] using Text.trim_spread (n := n) (b := []) hword hrest (by simp)
  have hnames : w :: cells.map (·.2) = (q.tins.map (·.name)).flatMap TinName.words := by
    have hflat := map_snd_columns 10 (q.tins.map fun p => p.name.words)
    rw [hcells, List.map_cons] at hflat
    rw [hflat, List.flatMap_def, List.map_map]
    rfl
  have hkind := Line.classify_tinNames htrim hwords (labelled?_tinWord (spread cells) w hw)
    (decide_eq_true hw)
  rw [Draft.read, h, hkind, hnames, Draft.add, TinName.joinNames_words, List.map_map]
  rfl

/-- A row of the table holds a word and the values of the tins. -/
theorem read_row {d : Draft} (h : d.inTable = true) {key : Text} (hkey : IsWord key)
    (hlower : Line.beginsLower key = true) {values : List Text} (hvalues : values ≠ [])
    (hwords : ∀ v ∈ values, IsWord v) :
    d.read (row key values) = .ok { d with rows := d.rows ++ [(key, values)] } := by
  have happart : Apart (columns (8 - key.length) (values.map fun v => [v])) := by
    refine apart_columns _ fun c hc w hw => ?_
    obtain ⟨v, hv, rfl⟩ := List.mem_map.mp hc
    rw [List.mem_singleton.mp hw]
    exact hwords v hv
  have hline : (row key values).words = key :: values := by
    rw [row, Text.words_spread hkey happart, map_snd_columns, ← List.flatMap_def,
      List.flatMap_singleton']
  rw [Draft.read, h, Line.classify_row hline hvalues hlower, Draft.add, h]

/-- Rows are kept in their order. -/
theorem foldlM_rows {rows : TinTable.Rows} (h : ∀ r ∈ rows, IsWord r.1 ∧
    Line.beginsLower r.1 = true ∧ r.2 ≠ [] ∧ ∀ v ∈ r.2, IsWord v) :
    ∀ {d : Draft}, d.inTable = true → (rows.map fun r => row r.1 r.2).foldlM Draft.read d
      = .ok { d with rows := d.rows ++ rows } := by
  induction rows with
  | nil =>
    intro d _
    rw [List.append_nil]
    rfl
  | cons r rows ih =>
    intro d hd
    obtain ⟨⟨hkey, hlower, hvalues, hwords⟩, hrows⟩ := List.forall_mem_cons.mp h
    rw [List.map_cons, foldlM_cons_ok (read_row hd hkey hlower hvalues hwords)]
    refine (ih hrows (d := { d with rows := d.rows ++ [r] }) hd).trans ?_
    simp

/-! ## The rows by their words -/

theorem key_tinLabel (l : TinLabel) :
    IsWord (l.keyword : Text) ∧ Line.beginsLower (l.keyword : Text) = true := by
  cases l <;> decide

theorem key_tinCounter (c : TinCounter) :
    IsWord (c.keyword : Text) ∧ Line.beginsLower (c.keyword : Text) = true := by
  cases c <;> decide

theorem rows_spec (hq : q.tins ≠ []) : ∀ r ∈ q.rows, IsWord r.1 ∧
    Line.beginsLower r.1 = true ∧ r.2 ≠ [] ∧ ∀ v ∈ r.2, IsWord v := by
  refine List.forall_mem_append.mpr ⟨fun r hr => ?_, fun r hr => ?_⟩
  · obtain ⟨l, -, rfl⟩ := List.mem_map.mp hr
    refine ⟨(key_tinLabel l).1, (key_tinLabel l).2, by simpa using hq, fun v hv => ?_⟩
    obtain ⟨p, -, rfl⟩ := List.mem_map.mp hv
    exact (p.label l).isWord
  · obtain ⟨c, -, rfl⟩ := List.mem_map.mp hr
    refine ⟨(key_tinCounter c).1, (key_tinCounter c).2, by simpa using hq, fun v hv => ?_⟩
    obtain ⟨p, -, rfl⟩ := List.mem_map.mp hv
    exact isWord_count (p.count c)

/-- No two rows begin with the same word, so each figure is found in its own row. -/
theorem row_tinLabel (l : TinLabel) :
    TinTable.row l.keyword q.rows = q.tins.map fun p => (p.label l).text := by
  cases l <;> rfl

theorem row_tinCounter (c : TinCounter) :
    TinTable.row c.keyword q.rows = q.tins.map fun p => (p.count c).text := by
  cases c <;> rfl

theorem cell_tinLabel {i : Nat} {p : PrintedTin} (hp : q.tins[i]? = some p) (l : TinLabel) :
    TinTable.cell q.rows l.keyword i = (p.label l).text := by
  rw [TinTable.cell, row_tinLabel, List.getElem?_map, hp]
  rfl

theorem cell_tinCounter {i : Nat} {p : PrintedTin} (hp : q.tins[i]? = some p) (c : TinCounter) :
    TinTable.cell q.rows c.keyword i = (p.count c).text := by
  rw [TinTable.cell, row_tinCounter, List.getElem?_map, hp]
  rfl

/-! ## The tins -/

/-- Counters that can all be read are those that were read. -/
theorem read_tinCounters {ε : Type} {f : TinCounter → Except ε Int} {g : TinCounter → Int}
    (h : ∀ c, f c = .ok (g c)) : TinCounters.read f = .ok (.ofFn g) := by
  simp only [TinCounters.read, TinCounter.all, List.foldlM_cons, List.foldlM_nil, h]
  rfl

theorem tin_eq {i : Nat} {p : PrintedTin} (hp : q.tins[i]? = some p) :
    TinTable.tin q.rows p.name.text i = .ok p.tin := by
  have hcounters : TinCounters.read (fun c =>
      (Counter.read (TinTable.cell q.rows c.keyword i)).map fun n => (n : Int))
      = .ok (.ofFn fun c => ((p.count c).value : Int)) := by
    refine read_tinCounters fun c => ?_
    rw [cell_tinCounter q hp, Count.text, Counter.read_ofNat (p.count c).readable]
    rfl
  have hlabels : (TinLabels.ofFn fun l => TinTable.cell q.rows l.keyword i)
      = .ofFn fun l => (p.label l).text := by
    congr 1
    funext l
    exact cell_tinLabel q hp l
  rw [TinTable.tin, hcounters, hlabels]
  rfl

/-- **The tins are assembled column by column.** -/
theorem assemble_rows :
    TinTable.assemble (q.tins.map fun p => p.name.text) q.rows = .ok (q.tins.map PrintedTin.tin) := by
  have hcolumn : ∀ c ∈ q.tins.zipIdx, TinTable.tin q.rows c.1.name.text c.2 = .ok c.1.tin :=
    fun c hc => tin_eq q (List.mk_mem_zipIdx_iff_getElem?.mp hc)
  have hall := mapM_eq_ok hcolumn
  have htins : (q.tins.zipIdx.map fun c => c.1.tin) = q.tins.map PrintedTin.tin := by
    conv_rhs => rw [← List.zipIdx_map_fst 0 q.tins, List.map_map]
    rfl
  rw [htins] at hall
  rw [TinTable.assemble, List.zipIdx_map, List.mapM_map]
  exact hall

/-! ## The whole queue -/

/-- The draft with what a queue printed in its table. -/
def tabulated (d : Draft) : Draft :=
  if q.tins = [] then d
  else { d with names := q.tins.map fun p => p.name.text, inTable := true, rows := d.rows ++ q.rows }

theorem foldlM_table {d : Draft} (h : d.inTable = false) :
    q.table.foldlM Draft.read d = .ok (q.tabulated d) := by
  by_cases hq : q.tins = []
  · rw [table, tabulated, if_pos hq, if_pos hq]
    rfl
  · have hrows := foldlM_rows (q.rows_spec hq)
      (d := { d with names := q.tins.map fun p => p.name.text, inTable := true }) rfl
    rw [table, tabulated, if_neg hq, if_neg hq, List.foldlM_append,
      foldlM_cons_ok d.read_nil, foldlM_cons_ok (q.read_namesLine h hq), hrows]
    exact Draft.foldlM_blank_lines _ 1

/-- Nothing but the tins is left to be filled in. -/
theorem finish_tabulated {d : Draft} (hn : d.names = []) (hr : d.rows = []) :
    (q.tabulated d).finish = .ok { d.snapshot with tins := q.tins.map PrintedTin.tin } := by
  by_cases hq : q.tins = []
  · rw [tabulated, if_pos hq, hq, Draft.finish, hn]
    rfl
  · rw [tabulated, if_neg hq, Draft.finish, hr, List.nil_append, q.assemble_rows]
    rfl

/-- The draft behind the header. -/
theorem ofHeader_header (t : Timestamp) : Draft.ofHeader t (q.header ++ [space])
    = { snapshot := { interface := q.interface.text, handle := q.handle.text
                      rawHeader := q.header, updatedAt := t, options := q.options } } := by
  rw [Draft.ofHeader, read?_header, trim_header, ← setAll_changeGroups]

/-- **The lines of a queue are read back** behind whatever header, with empty lines behind them or
without. -/
theorem readLines_body (t : Timestamp) (header : Text) (n : Nat) :
    Block.readLines t (header :: q.body ++ List.replicate n [])
      = .ok { (q.filled (Draft.ofHeader t header)).snapshot with tins := q.tins.map PrintedTin.tin } := by
  obtain ⟨hnames, hrows, hinTable⟩ := Draft.table_ofHeader t header
  have hbody : (q.body ++ List.replicate n []).foldlM Draft.read (Draft.ofHeader t header)
      = .ok (q.tabulated (q.filled (Draft.ofHeader t header))) := by
    have hfilled : (q.filled (Draft.ofHeader t header)).inTable = false := hinTable
    rw [body, List.append_assoc, q.foldlM_lines hinTable, List.foldlM_append, q.foldlM_table hfilled]
    exact Draft.foldlM_blank_lines _ n
  rw [Block.readLines, List.cons_append, List.headD_cons, List.drop_one, List.tail_cons, hbody]
  exact q.finish_tabulated hnames hrows

/-- **A printed queue is read back.** -/
theorem readLines_lines (t : Timestamp) (n : Nat) :
    Block.readLines t (q.lines ++ List.replicate n []) = .ok (q.snapshot t) := by
  rw [lines, readLines_body, ofHeader_header]
  rfl

end PrintedQueue

end CakeMonitor
