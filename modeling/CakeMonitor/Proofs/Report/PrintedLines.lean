import CakeMonitor.Proofs.Fallible
import CakeMonitor.Proofs.Report.PrintedHeader

/-!
# The printed lines are read back

Each line behind the header is taken for the kind of line that it is, and says what it was printed
for. Reading the lines one after another makes a draft that holds everything but the tins.

* `Line.classify_labelled`, `Line.classify_row`: the kind of a line from its words.
* `PrintedQueue.sent_sentText`: the five counters of the `Sent` line.
* `PrintedQueue.foldlM_lines`: the draft after the lines of a queue.
-/

namespace CakeMonitor

open Text (space colon spread IsWord Apart)

/-! ## Kinds of lines -/

namespace Line

theorem classify_nil (inTable : Bool) : classify inTable [] = .other := rfl

/-- Before the table a label tells the kind. -/
theorem classify_labelled {line t : Text} {k : Kind} (ht : line.trim = t) (hw : line.words ≠ [])
    (hk : labelled? t = some k) : classify false line = k := by
  rw [classify]
  cases h : line.words with
  | nil => exact absurd h hw
  | cons w ws => simp [ht, hk]

/-- Before the table a line without label that begins with a word of tins is the table's header. -/
theorem classify_tinNames {line t w : Text} {ws : List Text} (ht : line.trim = t)
    (hw : line.words = w :: ws) (hk : labelled? t = none) (hb : beginsTable w = true) :
    classify false line = .tinNames (w :: ws) := by
  simp [classify, hw, ht, hk, hb]

/-- In the table a word in lower case with values behind it begins a row, whatever else it could be. -/
theorem classify_row {line key : Text} {values : List Text} (hw : line.words = key :: values)
    (hv : values ≠ []) (hl : beginsLower key = true) : classify true line = .row key values := by
  simp [classify, hw, hv, hl]

/-- The first letters of the labels. -/
def labelInitials : Text := "Sbmca"

/-- A text that begins with another letter has no label. -/
theorem labelled?_eq_none {c : CodePoint} (h : c ∉ labelInitials) (t : Text) :
    labelled? (c :: t) = none := by
  have hne : ∀ d ∈ labelInitials, d ≠ c := fun d hd e => h (e ▸ hd)
  have hS : ('S' : CodePoint) ≠ c := hne _ (by decide)
  have hb : ('b' : CodePoint) ≠ c := hne _ (by decide)
  have hm : ('m' : CodePoint) ≠ c := hne _ (by decide)
  have hc : ('c' : CodePoint) ≠ c := hne _ (by decide)
  have ha : ('a' : CodePoint) ≠ c := hne _ (by decide)
  have hsent : Text.hasLabel "Sent " (c :: t) = false := Text.hasLabel_of_head_ne hS _ _
  have hbacklog : Text.hasLabel "backlog " (c :: t) = false := Text.hasLabel_of_head_ne hb _ _
  have hmemory : Text.hasLabel memoryLabel (c :: t) = false := Text.hasLabel_of_head_ne hm _ _
  have hcapacity : Text.afterLabel? "capacity estimate:" (c :: t) = none :=
    Text.afterLabel?_of_head_ne hc _ _
  have hoffset : Text.afterLabel? "average network hdr offset:" (c :: t) = none :=
    Text.afterLabel?_of_head_ne ha _ _
  have hnet : Text.hasLabel "min/max network layer size:" (c :: t) = false :=
    Text.hasLabel_of_head_ne hm _ _
  have hadjusted : Text.hasLabel "min/max overhead-adjusted size:" (c :: t) = false :=
    Text.hasLabel_of_head_ne hm _ _
  simp [labelled?, hsent, hbacklog, hmemory, hcapacity, hoffset, hnet, hadjusted]

theorem counted_ofNat (c : Total) (n : Count) : counted c n.text = .ok (c, (n.value : Int)) := by
  rw [counted, Count.text, Counter.read_ofNat n.readable]
  rfl

end Line

namespace Draft

/-- A line that says nothing. -/
theorem read_nil (d : Draft) : d.read [] = .ok d := by rw [read, Line.classify_nil]; rfl

theorem foldlM_blank_lines (d : Draft) : ∀ n : Nat,
    (List.replicate n ([] : Text)).foldlM Draft.read d = .ok d
  | 0 => rfl
  | n + 1 => by rw [List.replicate_succ, foldlM_cons_ok d.read_nil, foldlM_blank_lines d n]

/-- Before the table a line whose words begin with a label says what the label announces. -/
theorem read_labelled_append {d : Draft} (h : d.inTable = false) {n : Nat} {w b : Text}
    {cells : List (Nat × Text)} (hw : IsWord w) (hc : Apart cells) (hb : ∀ c ∈ b, c.isBlank = true)
    {k : Line.Kind} (hk : Line.labelled? (w ++ spread cells) = some k) :
    d.read (spread ((n, w) :: cells) ++ b) = d.add k := by
  have hwords : (spread ((n, w) :: cells) ++ b).words ≠ [] := by
    rw [Text.words_append_blanks hb, Text.words_spread hw hc]
    exact List.cons_ne_nil _ _
  rw [read, h, Line.classify_labelled (Text.trim_spread hw hc hb) hwords hk]

theorem read_labelled {d : Draft} (h : d.inTable = false) {n : Nat} {w : Text}
    {cells : List (Nat × Text)} (hw : IsWord w) (hc : Apart cells) {k : Line.Kind}
    (hk : Line.labelled? (w ++ spread cells) = some k) :
    d.read (spread ((n, w) :: cells)) = d.add k := by
  simpa using read_labelled_append h (n := n) (b := []) hw hc (by simp) hk

end Draft

namespace PrintedQueue

/-! ## Lines with one space in front of each word -/

theorem indented_cons (w : Text) (ws : List Text) :
    indented (w :: ws) = spread ((1, w) :: ws.map fun v => (1, v)) := rfl

theorem isWord_count (n : Count) : IsWord n.text := isWord_ofNat n.value

theorem isWord_count_append (n : Count) {u : Text} (h : ∀ c ∈ u, c.isBlank = false) :
    IsWord (n.text ++ u) :=
  ⟨by simp [(isWord_count n).ne_nil], List.forall_mem_append.mpr ⟨(isWord_count n).solid, h⟩⟩

/-- A code point that is no digit does not occur in a printed counter. -/
theorem not_mem_count {c : CodePoint} (h : ∀ d < 10, CodePoint.ofNat (0x30 + d) ≠ c) (n : Count) :
    c ∉ n.text :=
  fun hc => forall_mem_ofNat (p := fun d => d ≠ c) h n.value c hc rfl

variable (q : PrintedQueue)

/-! ## The counters of the `Sent` line -/

theorem isWord_sentWords : ∀ w ∈ [(q.totals .sentBytes).text, "bytes", (q.totals .sentPkts).text,
    "pkt", "(dropped", (q.totals .dropped).text ++ ("," : Text), "overlimits",
    (q.totals .overlimits).text, "requeues", (q.totals .requeues).text ++ (")" : Text)],
    IsWord w := by
  simp only [List.forall_mem_cons]
  exact ⟨isWord_count _, by decide, isWord_count _, by decide, by decide,
    isWord_count_append _ (by decide), by decide, isWord_count _, by decide,
    isWord_count_append _ (by decide), by simp⟩

/-- The `Sent` line without the blanks around it. -/
def sentText : Text :=
  ("Sent" : Text) ++ spread [(1, (q.totals .sentBytes).text), (1, "bytes"),
    (1, (q.totals .sentPkts).text), (1, "pkt"), (1, "(dropped"),
    (1, (q.totals .dropped).text ++ ("," : Text)), (1, "overlimits"),
    (1, (q.totals .overlimits).text), (1, "requeues"),
    (1, (q.totals .requeues).text ++ (")" : Text))]

/-- What stands in the parentheses of the `Sent` line. -/
def sentInside : Text :=
  spread [(0, "dropped"), (1, (q.totals .dropped).text)] ++ (',' : CodePoint) ::
    spread [(1, "overlimits"), (1, (q.totals .overlimits).text), (1, "requeues"),
      (1, (q.totals .requeues).text)]

/-- What stands in front of them. -/
def sentFront : Text :=
  spread [(0, "Sent"), (1, (q.totals .sentBytes).text), (1, "bytes"),
    (1, (q.totals .sentPkts).text), (1, "pkt"), (1, [])]

theorem sentText_eq : q.sentText
    = q.sentFront ++ ('(' : CodePoint) :: (q.sentInside ++ (')' : CodePoint) :: []) := by
  have hdropped : ("(dropped" : Text) = ('(' : CodePoint) :: "dropped" := rfl
  have hcomma : ("," : Text) = [(',' : CodePoint)] := rfl
  have hclose : (")" : Text) = [(')' : CodePoint)] := rfl
  simp [sentText, sentFront, sentInside, hdropped, hcomma, hclose]

theorem parenthesized?_sentText : Line.parenthesized? q.sentText = some q.sentInside := by
  have hfront : ('(' : CodePoint) ∉ q.sentFront := by
    refine Text.not_mem_spread (by decide) ?_
    simp only [List.forall_mem_cons]
    exact ⟨by decide, not_mem_count (by decide) _, by decide, not_mem_count (by decide) _, by decide,
      by simp, by simp⟩
  have hdropped : (')' : CodePoint) ∉ spread [(0, "dropped"), (1, (q.totals .dropped).text)] := by
    refine Text.not_mem_spread (by decide) ?_
    simp only [List.forall_mem_cons]
    exact ⟨by decide, not_mem_count (by decide) _, by simp⟩
  have hrest : (')' : CodePoint) ∉ spread [(1, "overlimits"), (1, (q.totals .overlimits).text),
      (1, "requeues"), (1, (q.totals .requeues).text)] := by
    refine Text.not_mem_spread (by decide) ?_
    simp only [List.forall_mem_cons]
    exact ⟨by decide, not_mem_count (by decide) _, by decide, not_mem_count (by decide) _, by simp⟩
  have hinside : (')' : CodePoint) ∉ q.sentInside := by
    rw [sentInside, List.mem_append, List.mem_cons, not_or, not_or]
    exact ⟨hdropped, by decide, hrest⟩
  rw [sentText_eq, Line.parenthesized?, Text.cut?_append hfront]
  simp [Text.cut?_append hinside]

/-- The names and values in the parentheses. -/
def sentNumbers : List (Text × Text) :=
  [("dropped", (q.totals .dropped).text), ("overlimits", (q.totals .overlimits).text),
   ("requeues", (q.totals .requeues).text)]

theorem sentPairs_sentText : Line.sentPairs q.sentText = q.sentNumbers := by
  have hcomma : (',' : CodePoint) ∉ spread [(0, "dropped"), (1, (q.totals .dropped).text)] := by
    refine Text.not_mem_spread (by decide) ?_
    simp only [List.forall_mem_cons]
    exact ⟨by decide, not_mem_count (by decide) _, by simp⟩
  have hrest : (',' : CodePoint) ∉ spread [(1, "overlimits"), (1, (q.totals .overlimits).text),
      (1, "requeues"), (1, (q.totals .requeues).text)] := by
    refine Text.not_mem_spread (by decide) ?_
    simp only [List.forall_mem_cons]
    exact ⟨by decide, not_mem_count (by decide) _, by decide, not_mem_count (by decide) _, by simp⟩
  have hfirst : Text.words (spread [(0, "dropped"), (1, (q.totals .dropped).text)])
      = ([("dropped" : Text), (q.totals .dropped).text] : List Text) :=
    Text.words_spread (by decide) (.cons (by decide) (isWord_count _) Text.apart_nil)
  have hsecond : Text.words (spread [(1, "overlimits"), (1, (q.totals .overlimits).text),
      (1, "requeues"), (1, (q.totals .requeues).text)])
      = ([("overlimits" : Text), (q.totals .overlimits).text, ("requeues" : Text),
          (q.totals .requeues).text] : List Text) :=
    Text.words_spread (by decide) <| .cons (by decide) (isWord_count _) <|
      .cons (by decide) (by decide) <| .cons (by decide) (isWord_count _) Text.apart_nil
  rw [Line.sentPairs, parenthesized?_sentText, sentInside]
  simp only []
  rw [Text.pieces_append_sep hcomma, Text.pieces_of_not_mem hrest]
  simp only [List.flatMap_cons, List.flatMap_nil, hfirst, hsecond]
  rfl

/-- The counters that the `Sent` line sets. -/
def sentTotals : List (Total × Int) :=
  [.sentBytes, .sentPkts, .dropped, .overlimits, .requeues].map fun c => (c, ((q.totals c).value : Int))

/-- **The counters of the `Sent` line are read back.** -/
theorem sent_sentText : Line.sent q.sentText = .ok q.sentTotals := by
  have hwords : q.sentText.words = ("Sent" : Text) :: (q.totals .sentBytes).text :: ("bytes" : Text)
      :: (q.totals .sentPkts).text :: [("pkt" : Text), ("(dropped" : Text),
        (q.totals .dropped).text ++ ("," : Text), ("overlimits" : Text),
        (q.totals .overlimits).text, ("requeues" : Text),
        (q.totals .requeues).text ++ (")" : Text)] :=
    Text.words_append_spread (by decide) (Text.apart_single q.isWord_sentWords)
  have hall : ∀ c ∈ ([.sentBytes, .sentPkts, .dropped, .overlimits, .requeues] : List Total).map
      (fun c => (c, (q.totals c).text)),
      Line.counted c.1 c.2 = .ok (c.1, ((q.totals c.1).value : Int)) := by
    intro c hc
    obtain ⟨t, -, rfl⟩ := List.mem_map.mp hc
    exact Line.counted_ofNat t (q.totals t)
  rw [Line.sent, hwords, sentPairs_sentText]
  exact (mapM_eq_ok hall).trans rfl

/-! ## The lines in front of the table -/

/-- The draft with what a queue printed in front of the table. -/
def filled (d : Draft) : Draft :=
  { d.setTotals (q.sentTotals ++ [(.backlogPkts, ((q.totals .backlogPkts).value : Int))]) with
    snapshot.backlogBytes := q.backlogBytes.text
    snapshot.memoryUsed := q.memoryUsed.text
    snapshot.memoryTotal := q.memoryTotal.text
    snapshot.capacityEstimate := q.capacity.text
    snapshot.sizes.minNet := q.minNet.text
    snapshot.sizes.maxNet := q.maxNet.text
    snapshot.sizes.minAdjusted := q.minAdjusted.text
    snapshot.sizes.maxAdjusted := q.maxAdjusted.text
    snapshot.sizes.headerOffset := q.headerOffset.text }

/-- A word behind the spaces in front of it. -/
theorem trim_token (n : Nat) (v : Token) : (spread [(n, v.text)]).trim = v.text := by
  simpa using Text.trim_spread (n := n) (b := []) v.isWord Text.apart_nil (by simp)

theorem gap_pos (width : Nat) (t : Text) : 0 < gap width t := by rw [gap]; omega

/-- The two sizes behind the colon of a label. -/
theorem bounds_append {front : Text} (hf : colon ∉ front) (n m : Nat) (low high : Token) :
    Line.bounds (front ++ colon :: spread [(n, low.text), (1, "/"), (m, high.text)])
      = (low.text, high.text) := by
  have hslash : ('/' : CodePoint) ∉ spread [(n, low.text), (1, [])] := by
    refine Text.not_mem_spread (by decide) ?_
    simp only [List.forall_mem_cons]
    exact ⟨low.noSlash, by simp, by simp⟩
  have hrest : spread [(n, low.text), (1, "/"), (m, high.text)]
      = spread [(n, low.text), (1, [])] ++ ('/' : CodePoint) :: spread [(m, high.text)] := by
    have : ("/" : Text) = [('/' : CodePoint)] := rfl
    simp [this]
  have hlow : (spread [(n, low.text), (1, [])]).trim = low.text := by
    simpa using Text.trim_spread (n := n) (b := [space]) low.isWord Text.apart_nil
      isBlank_of_mem_space
  rw [Line.bounds, Text.cut?_append hf, hrest]
  simp only [Option.bind_some, Text.cut?_append hslash, hlow, trim_token]

/-- A line of two sizes is told by its label. -/
theorem read_boundsLine {d : Draft} (h : d.inTable = false) {w : Text} {ws : List Text}
    (hw : IsWord w) (hws : ∀ v ∈ ws, IsWord v) {front : Text} (hf : colon ∉ front)
    (hlabel : w ++ spread (ws.map fun v => (1, v)) = front ++ [colon]) {kind : Text → Line.Kind}
    (hk : ∀ t, Line.labelled? (front ++ colon :: t) = some (kind (front ++ colon :: t)))
    (width : Nat) (low high : Token) :
    ∃ t, d.read (boundsLine (w :: ws) width low high) = d.add (kind t)
      ∧ Line.bounds t = (low.text, high.text) := by
  have hsizes : Apart [(gap width low.text, low.text), (1, "/"), (gap 7 high.text, high.text)] :=
    .cons (gap_pos _ _) low.isWord <| .cons Nat.one_pos (by decide) <|
      .cons (gap_pos _ _) high.isWord Text.apart_nil
  have htext : w ++ spread ((ws.map fun v => (1, v))
        ++ [(gap width low.text, low.text), (1, "/"), (gap 7 high.text, high.text)])
      = front ++ colon :: spread [(gap width low.text, low.text), (1, "/"),
        (gap 7 high.text, high.text)] := by
    rw [Text.spread_append, ← List.append_assoc, hlabel, List.append_assoc, List.singleton_append]
  have hline : boundsLine (w :: ws) width low high = spread ((1, w) :: ((ws.map fun v => (1, v))
      ++ [(gap width low.text, low.text), (1, "/"), (gap 7 high.text, high.text)])) := by
    rw [boundsLine, indented_cons, ← Text.spread_append, List.cons_append]
  refine ⟨_, ?_, bounds_append hf (gap width low.text) (gap 7 high.text) low high⟩
  rw [hline]
  exact Draft.read_labelled h hw ((Text.apart_single hws).append hsizes) (by rw [htext, hk])

variable {d : Draft} (h : d.inTable = false)
include h

theorem read_sentLine : d.read q.sentLine = .ok (d.setTotals q.sentTotals) := by
  have hkind : Line.labelled? q.sentText = some (.sent q.sentText) := rfl
  rw [sentLine, indented_cons, Draft.read_labelled_append h (by decide)
    (Text.apart_single q.isWord_sentWords) isBlank_of_mem_space hkind, Draft.add, sent_sentText]
  rfl

theorem read_backlogLine : d.read q.backlogLine
    = .ok { d.setTotals [(.backlogPkts, ((q.totals .backlogPkts).value : Int))] with
        snapshot.backlogBytes := q.backlogBytes.text } := by
  have hcells : Apart [(1, q.backlogBytes.text), (1, (q.totals .backlogPkts).text ++ ("p" : Text)),
      (1, "requeues"), (1, (q.totals .requeues).text)] :=
    .cons Nat.one_pos q.backlogBytes.isWord <| .cons Nat.one_pos (isWord_count_append _ (by decide)) <|
      .cons Nat.one_pos (by decide) <| .cons Nat.one_pos (isWord_count _) Text.apart_nil
  have hwords := Text.words_append_spread (w := "backlog") (by decide) hcells
  have htrim : Text.trimEndBy (· = 'p') ((q.totals .backlogPkts).text ++ ("p" : Text))
      = (q.totals .backlogPkts).text :=
    Text.trimEndBy_append (by decide) fun c hc =>
      decide_eq_false fun e => not_mem_count (by decide) _ (e ▸ List.mem_of_getLast? hc)
  have hline : Line.backlog? (("backlog" : Text) ++ spread [(1, q.backlogBytes.text),
        (1, (q.totals .backlogPkts).text ++ ("p" : Text)), (1, "requeues"),
        (1, (q.totals .requeues).text)])
      = .ok (some (q.backlogBytes.text, ((q.totals .backlogPkts).value : Int))) := by
    rw [Line.backlog?, hwords]
    simp only [List.map_cons]
    rw [htrim, Count.text, Counter.read_ofNat (q.totals .backlogPkts).readable]
    rfl
  have hread := Draft.read_labelled h (n := 1) (w := "backlog") (by decide) hcells rfl
  rw [Draft.add, hline] at hread
  exact hread

theorem read_memoryLine : d.read q.memoryLine
    = .ok { d with snapshot.memoryUsed := q.memoryUsed.text,
                   snapshot.memoryTotal := q.memoryTotal.text } := by
  have hrest : Apart [(1, "of"), (1, q.memoryTotal.text)] :=
    .cons Nat.one_pos (by decide) <| .cons Nat.one_pos q.memoryTotal.isWord Text.apart_nil
  have hwords := Text.words_spread (n := 1) q.memoryUsed.isWord hrest
  have hread := Draft.read_labelled h (n := 1) (w := "memory") (by decide)
    (.cons Nat.one_pos (w := "used:") (by decide) <| .cons Nat.one_pos q.memoryUsed.isWord hrest) rfl
  have hline : Line.memory? (("memory" : Text) ++ spread [(1, "used:"), (1, q.memoryUsed.text),
      (1, "of"), (1, q.memoryTotal.text)]) = some (q.memoryUsed.text, q.memoryTotal.text) := by
    have hdrop : (("memory" : Text) ++ spread [(1, "used:"), (1, q.memoryUsed.text), (1, "of"),
          (1, q.memoryTotal.text)]).drop Line.memoryLabel.length
        = spread [(1, q.memoryUsed.text), (1, "of"), (1, q.memoryTotal.text)] := rfl
    rw [Line.memory?, hdrop, hwords]
    rfl
  rw [Draft.add, hline] at hread
  exact hread

theorem read_capacityLine : d.read q.capacityLine
    = .ok { d with snapshot.capacityEstimate := q.capacity.text } := by
  have hkind : Line.labelled? (("capacity" : Text) ++ spread [(1, "estimate:"), (1, q.capacity.text)])
      = some (.capacity (spread [(1, q.capacity.text)]).trim) := rfl
  have hread := Draft.read_labelled h (n := 1) (w := "capacity") (by decide)
    (.cons Nat.one_pos (w := "estimate:") (by decide) <|
      .cons Nat.one_pos q.capacity.isWord Text.apart_nil) hkind
  rw [trim_token] at hread
  exact hread

theorem read_offsetLine : d.read q.offsetLine
    = .ok { d with snapshot.sizes.headerOffset := q.headerOffset.text } := by
  have hcells : Apart [(1, "network"), (1, "hdr"), (1, "offset:"),
      (gap 12 q.headerOffset.text, q.headerOffset.text)] :=
    .cons Nat.one_pos (by decide) <| .cons Nat.one_pos (by decide) <|
      .cons Nat.one_pos (by decide) <| .cons (gap_pos _ _) q.headerOffset.isWord Text.apart_nil
  have hkind : Line.labelled? (("average" : Text) ++ spread [(1, "network"), (1, "hdr"),
        (1, "offset:"), (gap 12 q.headerOffset.text, q.headerOffset.text)])
      = some (.headerOffset (spread [(gap 12 q.headerOffset.text, q.headerOffset.text)]).trim) := rfl
  have hread := Draft.read_labelled h (n := 1) (w := "average") (by decide) hcells hkind
  rw [trim_token] at hread
  exact hread

theorem read_netLine : d.read q.netLine
    = .ok { d with snapshot.sizes.minNet := q.minNet.text,
                   snapshot.sizes.maxNet := q.maxNet.text } := by
  obtain ⟨t, hread, hbounds⟩ := read_boundsLine h
    (by decide : IsWord "min/max")
    (by decide : ∀ v ∈ (["network", "layer", "size:"] : List Text), IsWord v)
    (by decide : colon ∉ ("min/max network layer size" : Text)) (by decide) (fun _ => rfl)
    12 q.minNet q.maxNet
  rw [netLine, hread, Draft.add, hbounds]

theorem read_adjustedLine : d.read q.adjustedLine
    = .ok { d with snapshot.sizes.minAdjusted := q.minAdjusted.text,
                   snapshot.sizes.maxAdjusted := q.maxAdjusted.text } := by
  obtain ⟨t, hread, hbounds⟩ := read_boundsLine h
    (by decide : IsWord "min/max")
    (by decide : ∀ v ∈ (["overhead-adjusted", "size:"] : List Text), IsWord v)
    (by decide : colon ∉ ("min/max overhead-adjusted size" : Text)) (by decide) (fun _ => rfl)
    8 q.minAdjusted q.maxAdjusted
  rw [adjustedLine, hread, Draft.add, hbounds]

/-- **The lines in front of the table are read back.** -/
theorem foldlM_lines (rest : List Text) :
    ([q.sentLine, q.backlogLine, q.memoryLine, q.capacityLine, q.netLine, q.adjustedLine, q.offsetLine]
      ++ rest).foldlM Draft.read d = rest.foldlM Draft.read (q.filled d) := by
  have hread {d d' : Draft} {line : Text} {ls : List Text} (h : d.read line = .ok d') :
      (line :: ls).foldlM Draft.read d = ls.foldlM Draft.read d' := foldlM_cons_ok h ls
  -- no line begins the table, so every draft is like the first one
  refine (hread (q.read_sentLine h)).trans ?_
  refine (hread (q.read_backlogLine (by exact h))).trans ?_
  refine (hread (q.read_memoryLine (by exact h))).trans ?_
  refine (hread (q.read_capacityLine (by exact h))).trans ?_
  refine (hread (q.read_netLine (by exact h))).trans ?_
  refine (hread (q.read_adjustedLine (by exact h))).trans ?_
  refine (hread (q.read_offsetLine (by exact h))).trans ?_
  rfl

end PrintedQueue

end CakeMonitor
