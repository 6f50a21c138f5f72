import CakeMonitor.Proofs.Report.Legible
import CakeMonitor.Proofs.Report.SentTotal

/-!
# The pairs of a `Sent` line

In the parentheses of a `Sent` line stand names and values in pairs. Commas and blanks separate the pairs, and
how many of them and which makes no difference. Of each counter the last pair with its name counts, and pairs
with other names are passed over.

* `lastUnder?`: the last value under a key; `Totals.get_setAll` says that it is the one that stays.
* `Line.pairsIn_append`: the pair in front of a separator is read off, whatever follows.
* `SentLine`: a line laid out from its pairs, and what it says; `SentLine.sentPairs_text` reads the pairs back.
* `SentLine.sent_reads`: the counters of such a line, and when two lines say the same.
-/

namespace CakeMonitor

open Text (IsWord space)

/-! ## The last value under a key -/

section LastUnder

variable {κ β γ : Type} [DecidableEq κ]

/-- The value under a key, the last one if there are several. -/
def lastUnder? (key : κ) (entries : List (κ × β)) : Option β :=
  (entries.filter fun e => e.1 = key).getLast?.map (·.2)

theorem lastUnder?_cons (key : κ) (e : κ × β) (entries : List (κ × β)) :
    lastUnder? key (e :: entries)
      = (lastUnder? key entries).or (if e.1 = key then some e.2 else none) := by
  unfold lastUnder?
  by_cases h : e.1 = key
  · rw [List.filter_cons_of_pos (by simpa using h), List.getLast?_cons, if_pos h]
    cases (entries.filter fun e => e.1 = key).getLast? <;> rfl
  · rw [List.filter_cons_of_neg (by simpa using h), if_neg h, Option.or_none]

/-- Values may be read before or after the last one is taken. -/
theorem lastUnder?_map (read : β → γ) (key : κ) (entries : List (κ × β)) :
    lastUnder? key (entries.map fun e => (e.1, read e.2)) = (lastUnder? key entries).map read := by
  induction entries with
  | nil => rfl
  | cons e entries ih =>
    rw [List.map_cons, lastUnder?_cons, lastUnder?_cons, ih]
    cases lastUnder? key entries with
    | some value => rfl
    | none => by_cases h : e.1 = key <;> simp [h]

/-- The last change of a counter is the one that stays. -/
theorem Totals.get_setAll (t : Totals) (changes : List (Total × Int)) (c : Total) :
    (t.setAll changes).get c = (lastUnder? c changes).getD (t.get c) := by
  induction changes generalizing t with
  | nil => rfl
  | cons d changes ih =>
    show ((t.set d.1 d.2).setAll changes).get c = _
    rw [ih, lastUnder?_cons, Totals.get_set]
    cases lastUnder? c changes with
    | some n => rfl
    | none =>
      by_cases h : d.1 = c
      · simp [h]
      · simp [h, Ne.symm h]

end LastUnder

/-! ## Pairs in a text -/

namespace Line

/-- The name of a counter in the parentheses, if it may stand there. -/
def sentName? : Total → Option Text
  | .dropped => some "dropped"
  | .overlimits => some "overlimits"
  | .requeues => some "requeues"
  | _ => none

theorem sentCounter?_eq_some_iff {name : Text} {c : Total} :
    sentCounter? name = some c ↔ sentName? c = some name := by
  constructor
  · intro h
    obtain ⟨entry, hentry, rfl⟩ := Option.map_eq_some_iff.mp h
    obtain rfl : name = entry.1 := by simpa using List.find?_some hentry
    exact (by decide : ∀ e ∈ sentCounters, sentName? e.2 = some e.1) entry
      (List.mem_of_find?_eq_some hentry)
  · intro h
    cases c with
    | dropped | overlimits | requeues =>
      obtain rfl := Option.some.inj h
      decide
    | sentBytes | sentPkts | backlogPkts => cases h

/-- **Of a counter with a name the last pair with that name counts**, and of others none does. -/
theorem lastUnder?_drops (c : Total) (pairs : List (Text × Text)) :
    lastUnder? c (pairs.filterMap fun (k, v) => (sentCounter? k).map (·, v))
      = (sentName? c).bind fun k => lastUnder? k pairs := by
  induction pairs with
  | nil => cases c <;> rfl
  | cons kv pairs ih =>
    obtain ⟨k, v⟩ := kv
    have hstep : (sentName? c).bind (fun m => lastUnder? m ((k, v) :: pairs))
        = ((sentName? c).bind fun m => lastUnder? m pairs).or
          (if sentName? c = some k then some v else none) := by
      cases sentName? c with
      | none => rfl
      | some m => simp [lastUnder?_cons, eq_comm]
    rw [hstep, ← ih]
    cases hk : sentCounter? k with
    | none =>
      have hother : sentName? c ≠ some k := fun hname => by
        rw [sentCounter?_eq_some_iff.mpr hname] at hk
        cases hk
      rw [List.filterMap_cons_none (by simp [hk]), if_neg hother, Option.or_none]
    | some d =>
      have hsame : d = c ↔ sentName? c = some k := by
        rw [← sentCounter?_eq_some_iff, hk, Option.some.injEq]
      rw [List.filterMap_cons_some (b := (d, v)) (by simp [hk]), lastUnder?_cons]
      exact congrArg _ (if_congr hsame rfl rfl)

/-- The pairs in a text where commas begin new groups. -/
def pairsIn (t : Text) : List (Text × Text) := (Text.pieces ',' t).flatMap fun p => pairs p.words

theorem sentPairs_eq {line inside : Text} (h : parenthesized? line = some inside) :
    sentPairs line = pairsIn inside := by
  unfold sentPairs
  rw [h]
  rfl

/-- A comma or a blank. -/
def Separates (c : CodePoint) : Prop := c = ',' ∨ c.isBlank = true

instance (c : CodePoint) : Decidable (Separates c) :=
  inferInstanceAs (Decidable (c = ',' ∨ c.isBlank = true))

/-- What separates pairs makes no pair. -/
theorem pairsIn_cons {c : CodePoint} (h : Separates c) (t : Text) : pairsIn (c :: t) = pairsIn t := by
  unfold pairsIn
  rcases h with rfl | hblank
  · rw [Text.pieces, if_pos rfl]
    rfl
  · have hcomma : c ≠ ',' := fun hc => absurd (hc ▸ hblank) (by decide)
    obtain ⟨p, ps, hp⟩ := List.exists_cons_of_ne_nil (Text.pieces_ne_nil ',' t)
    rw [Text.pieces, if_neg hcomma, hp]
    show pairs (Text.words (c :: p)) ++ _ = pairs p.words ++ _
    rw [Text.words_cons_blank hblank]

theorem pairsIn_append_separators {s : Text} (h : ∀ c ∈ s, Separates c) (t : Text) :
    pairsIn (s ++ t) = pairsIn t := by
  induction s with
  | nil => rfl
  | cons c s ih =>
    obtain ⟨hc, hs⟩ := List.forall_mem_cons.mp h
    rw [List.cons_append, pairsIn_cons hc, ih hs]

/-- A token: a word without commas and parentheses. -/
structure IsToken (t : Text) : Prop where
  isWord : IsWord t
  plain : ∀ c ∈ t, c ≠ ',' ∧ c ≠ '(' ∧ c ≠ ')'

instance (t : Text) : Decidable (IsToken t) :=
  decidable_of_iff (IsWord t ∧ ∀ c ∈ t, c ≠ ',' ∧ c ≠ '(' ∧ c ≠ ')')
    ⟨fun h => ⟨h.1, h.2⟩, fun h => ⟨h.1, h.2⟩⟩

/-- A text that begins with a separator begins with a blank up to its first comma, if there is anything. -/
theorem head?_piece {rest p : Text} {ps : List Text} (h : ∀ c ∈ rest.head?, Separates c)
    (hp : Text.pieces ',' rest = p :: ps) : ∀ c ∈ p.head?, c.isBlank = true := by
  cases rest with
  | nil =>
    obtain ⟨rfl, -⟩ := List.cons.inj hp
    nofun
  | cons c rest =>
    rw [Text.pieces] at hp
    split_ifs at hp with hcomma
    · obtain ⟨rfl, -⟩ := List.cons.inj hp
      nofun
    · obtain ⟨q, qs, hq⟩ := List.exists_cons_of_ne_nil (Text.pieces_ne_nil ',' rest)
      rw [hq] at hp
      obtain ⟨rfl, -⟩ := List.cons.inj hp
      have hblank := (h c rfl).resolve_left hcomma
      simpa using hblank

/-- A word ends where the text does, or at a blank. -/
theorem words_append_of_head? {x p : Text} (hx : IsWord x) (hp : ∀ c ∈ p.head?, c.isBlank = true) :
    Text.words (x ++ p) = x :: p.words := by
  cases p with
  | nil => rw [List.append_nil, hx.words_eq, Text.words_nil]
  | cons c p =>
    have hc : c.isBlank = true := hp c rfl
    rw [Text.words_append_blank hc, hx.words_eq, Text.words_cons_blank hc, List.singleton_append]

/-- **The pair in front is read off** when a separator follows, or nothing. -/
theorem pairsIn_append {name gap value rest : Text} (hname : IsToken name) (hvalue : IsToken value)
    (hgap : gap ≠ []) (hblank : ∀ c ∈ gap, c.isBlank = true) (hrest : ∀ c ∈ rest.head?, Separates c) :
    pairsIn (name ++ gap ++ value ++ rest) = (name, value) :: pairsIn rest := by
  have hcomma : (',' : CodePoint) ∉ name ++ gap ++ value := by
    simp only [List.mem_append, not_or]
    exact ⟨⟨fun h => (hname.plain _ h).1 rfl, fun h => absurd (hblank _ h) (by decide)⟩,
      fun h => (hvalue.plain _ h).1 rfl⟩
  obtain ⟨p, ps, hp⟩ := List.exists_cons_of_ne_nil (Text.pieces_ne_nil ',' rest)
  have hwords : Text.words (name ++ gap ++ value ++ p) = name :: value :: p.words := by
    obtain ⟨b, gap, rfl⟩ := List.exists_cons_of_ne_nil hgap
    obtain ⟨hb, hblank⟩ := List.forall_mem_cons.mp hblank
    have hsplit : name ++ b :: gap ++ value ++ p = name ++ b :: (gap ++ (value ++ p)) := by simp
    rw [hsplit, Text.words_append_blank hb, hname.isWord.words_eq, Text.words_blanks_append hblank,
      words_append_of_head? hvalue.isWord (head?_piece hrest hp), List.singleton_append]
  unfold pairsIn
  rw [Text.pieces_append_of_not_mem hcomma hp, hp, List.flatMap_cons, hwords]
  rfl

end Line

/-! ## Lines laid out from their pairs -/

/-- A pair as it stands in the parentheses. -/
structure SentPair where
  /-- what separates it from the pair in front -/
  before : Text
  name : Text
  /-- the blanks between name and value -/
  gap : Text
  value : Text
  separates : ∀ c ∈ before, Line.Separates c := by decide
  isToken_name : Line.IsToken name := by decide
  gap_ne_nil : gap ≠ [] := by decide
  blank : ∀ c ∈ gap, c.isBlank = true := by decide
  isToken_value : Line.IsToken value := by decide

namespace SentPair

def text (p : SentPair) : Text := p.before ++ (p.name ++ p.gap ++ p.value)

def pair (p : SentPair) : Text × Text := (p.name, p.value)

end SentPair

/-- A `Sent` line with its byte and packet counters and its pairs. -/
structure SentLine where
  bytes : Text
  packets : Text
  pairs : List SentPair
  /-- commas and blanks behind the last pair -/
  after : Text := []
  isToken_bytes : Line.IsToken bytes := by decide
  isToken_packets : Line.IsToken packets := by decide
  /-- each pair but the first is separated from the one in front -/
  separated : ∀ p ∈ pairs.tail, p.before ≠ [] := by decide
  separates : ∀ c ∈ after, Line.Separates c := by decide

namespace SentLine

/-- What stands in the parentheses. -/
def inside (s : SentLine) : Text := s.pairs.flatMap SentPair.text ++ s.after

/-- The line as it is printed. -/
def text (s : SentLine) : Text :=
  ("Sent " : Text) ++ s.bytes ++ (" bytes " : Text) ++ s.packets ++ (" pkt (" : Text) ++ s.inside
    ++ (")" : Text)

/-- The names and values in the parentheses. -/
def values (s : SentLine) : List (Text × Text) := s.pairs.map SentPair.pair

/-- The value of the last pair with that name. -/
def last? (s : SentLine) (name : Text) : Option Int :=
  (lastUnder? name s.values).map fun value => (Counter.value value : Int)

/-- The value that the line gives a counter. -/
def field? (s : SentLine) : Total → Option Int
  | .sentBytes => some (Counter.value s.bytes)
  | .sentPkts => some (Counter.value s.packets)
  | c => (Line.sentName? c).bind s.last?

/-! ## The pairs are read back -/

/-- What follows a pair begins with a separator, if anything follows. -/
theorem separates_head? {pairs : List SentPair} {after : Text} (hpairs : ∀ p ∈ pairs, p.before ≠ [])
    (hafter : ∀ c ∈ after, Line.Separates c) :
    ∀ c ∈ (pairs.flatMap SentPair.text ++ after).head?, Line.Separates c := by
  intro c hc
  cases pairs with
  | nil => exact hafter c (List.mem_of_head? hc)
  | cons p pairs =>
    obtain ⟨b, before, hb⟩ := List.exists_cons_of_ne_nil (hpairs p List.mem_cons_self)
    have hfirst : b = c := by simpa [SentPair.text, hb] using hc
    exact hfirst ▸ p.separates b (hb ▸ List.mem_cons_self)

theorem pairsIn_pairs {pairs : List SentPair} {after : Text} (hpairs : ∀ p ∈ pairs.tail, p.before ≠ [])
    (hafter : ∀ c ∈ after, Line.Separates c) :
    Line.pairsIn (pairs.flatMap SentPair.text ++ after) = pairs.map SentPair.pair := by
  induction pairs with
  | nil =>
    have hnone := Line.pairsIn_append_separators hafter []
    rw [List.append_nil] at hnone
    exact hnone
  | cons p pairs ih =>
    have hrest := ih fun q hq => hpairs q (List.mem_of_mem_tail hq)
    have hpairs : ∀ q ∈ pairs, q.before ≠ [] := hpairs
    have hnext := separates_head? hpairs hafter
    rw [List.flatMap_cons, List.append_assoc, SentPair.text, List.append_assoc,
      Line.pairsIn_append_separators p.separates,
      Line.pairsIn_append p.isToken_name p.isToken_value p.gap_ne_nil p.blank hnext, hrest]
    rfl

/-- Neither pairs nor what separates them hold a parenthesis. -/
theorem parenthesis_not_mem_inside (s : SentLine) : (')' : CodePoint) ∉ s.inside := by
  have hseparator : ¬ Line.Separates ')' := by decide
  have hblank : CodePoint.isBlank ')' = false := by decide
  unfold inside
  rw [List.mem_append, not_or]
  refine ⟨fun h => ?_, fun h => hseparator (s.separates _ h)⟩
  obtain ⟨p, -, h⟩ := List.mem_flatMap.mp h
  simp only [SentPair.text, List.mem_append] at h
  rcases h with h | (h | h) | h
  · exact hseparator (p.separates _ h)
  · exact (p.isToken_name.plain _ h).2.2 rfl
  · rw [p.blank _ h] at hblank
    cases hblank
  · exact (p.isToken_value.plain _ h).2.2 rfl

theorem parenthesized?_text (s : SentLine) : Line.parenthesized? s.text = some s.inside := by
  have hsplit : s.text = (("Sent " : Text) ++ s.bytes ++ (" bytes " : Text) ++ s.packets ++ (" pkt " : Text))
      ++ ('(' : CodePoint) :: (s.inside ++ (')' : CodePoint) :: []) := by
    have hopen : (" pkt (" : Text) = (" pkt " : Text) ++ [('(' : CodePoint)] := rfl
    have hclose : (")" : Text) = [(')' : CodePoint)] := rfl
    simp [text, hopen, hclose]
  have hfront : ('(' : CodePoint) ∉
      ("Sent " : Text) ++ s.bytes ++ (" bytes " : Text) ++ s.packets ++ (" pkt " : Text) := by
    simp only [List.mem_append, not_or]
    exact ⟨⟨⟨⟨by decide, fun h => (s.isToken_bytes.plain _ h).2.1 rfl⟩, by decide⟩,
      fun h => (s.isToken_packets.plain _ h).2.1 rfl⟩, by decide⟩
  rw [hsplit, Line.parenthesized?, Text.cut?_append hfront]
  simp [Text.cut?_append s.parenthesis_not_mem_inside]

/-- **The pairs are read back**, however they are separated. -/
theorem sentPairs_text (s : SentLine) : Line.sentPairs s.text = s.values := by
  rw [Line.sentPairs_eq s.parenthesized?_text]
  exact pairsIn_pairs s.separated s.separates

theorem words_text (s : SentLine) :
    ∃ ws, s.text.words = ("Sent" : Text) :: s.bytes :: ("bytes" : Text) :: s.packets :: ws := by
  refine ⟨Text.words (("pkt (" : Text) ++ s.inside ++ (")" : Text)), ?_⟩
  have hsplit : s.text = ("Sent" : Text) ++ space :: (s.bytes ++ space :: (("bytes" : Text) ++ space ::
      (s.packets ++ space :: (("pkt (" : Text) ++ s.inside ++ (")" : Text))))) := by
    have hfirst : ("Sent " : Text) = ("Sent" : Text) ++ [space] := rfl
    have hthird : (" bytes " : Text) = space :: ("bytes" : Text) ++ [space] := rfl
    have hfifth : (" pkt (" : Text) = space :: ("pkt (" : Text) := rfl
    simp [text, hfirst, hthird, hfifth]
  have hsent : IsWord "Sent" := by decide
  have hbytes : IsWord "bytes" := by decide
  rw [hsplit]
  simp only [Text.words_append_blank Text.isBlank_space, hsent.words_eq, hbytes.words_eq,
    s.isToken_bytes.isWord.words_eq, s.isToken_packets.isWord.words_eq, List.singleton_append]

/-- The tokens that are read as counters. -/
theorem sentTokens_text (s : SentLine) : Line.sentTokens s.text
    = (.sentBytes, s.bytes) :: (.sentPkts, s.packets)
      :: s.values.filterMap fun (k, v) => (Line.sentCounter? k).map (·, v) := by
  obtain ⟨ws, hwords⟩ := s.words_text
  unfold Line.sentTokens
  rw [hwords, s.sentPairs_text]
  rfl

/-! ## The counters of the line -/

/-- The tokens that are read as counters can be read. -/
structure Readable (s : SentLine) : Prop where
  bytes : Succeeds (Counter.read s.bytes)
  packets : Succeeds (Counter.read s.packets)
  values : ∀ p ∈ s.pairs, (Line.sentCounter? p.name).isSome → Succeeds (Counter.read p.value)

theorem Readable.tokens {s : SentLine} (h : s.Readable) :
    ∀ c ∈ Line.sentTokens s.text, Succeeds (Counter.read c.2) := by
  rw [sentTokens_text]
  refine List.forall_mem_cons.mpr ⟨h.bytes, List.forall_mem_cons.mpr ⟨h.packets, ?_⟩⟩
  intro c hc
  obtain ⟨⟨k, v⟩, hkv, hcounter⟩ := List.mem_filterMap.mp hc
  obtain ⟨p, hp, hpair⟩ := List.mem_map.mp hkv
  obtain ⟨d, hd, rfl⟩ := Option.map_eq_some_iff.mp hcounter
  obtain ⟨rfl, rfl⟩ := Prod.mk.inj hpair
  exact h.values p hp (Option.isSome_iff_exists.mpr ⟨d, hd⟩)

/-- The counters of a readable line are the values of its tokens. -/
theorem sent_text {s : SentLine} (h : s.Readable) : Line.sent s.text
    = .ok ((Line.sentTokens s.text).map fun c => (c.1, (Counter.value c.2 : Int))) := by
  rw [Line.sent_eq]
  refine mapM_eq_ok fun c hc => ?_
  obtain ⟨n, hn⟩ := h.tokens c hc
  show Line.counted c.1 c.2 = _
  rw [Line.counted, hn, Counter.value_eq hn]
  rfl

/-- Each counter is set to the value that the line gives it, and others are not set. -/
theorem lastUnder?_sentTokens (s : SentLine) (c : Total) :
    lastUnder? c ((Line.sentTokens s.text).map fun c => (c.1, (Counter.value c.2 : Int))) = s.field? c := by
  have hread := lastUnder?_map (fun v => (Counter.value v : Int)) c (Line.sentTokens s.text)
  rw [hread, sentTokens_text, lastUnder?_cons, lastUnder?_cons, Line.lastUnder?_drops]
  cases c with
  | sentBytes | sentPkts | backlogPkts => rfl
  | dropped | overlimits | requeues => simp [field?, last?, Line.sentName?]

/-- **The pairs of a `Sent` line.** A line whose counters can be read sets bytes and packets, and each counter
that is named in the parentheses, to the value of the last pair with its name; no other. Another line with
the same bytes and packets sets the same if the last pairs with these names have the same values, so neither
separators, nor the order of other names, nor pairs with unknown names make a difference. -/
theorem sent_reads {s : SentLine} (readable : s.Readable) :
    ∃ changes, Line.sent s.text = .ok changes ∧ (∀ c, lastUnder? c changes = s.field? c) ∧
      (∀ (t : Totals) (c : Total), (t.setAll changes).get c = (s.field? c).getD (t.get c)) ∧
      ∀ s' : SentLine, s'.Readable → s'.bytes = s.bytes → s'.packets = s.packets →
        (∀ c, ∀ name ∈ Line.sentName? c, lastUnder? name s'.values = lastUnder? name s.values) →
        ∃ changes', Line.sent s'.text = .ok changes' ∧
          ∀ c, lastUnder? c changes' = lastUnder? c changes := by
  have hfields := s.lastUnder?_sentTokens
  refine ⟨_, sent_text readable, hfields, fun t c => ?_, fun s' readable' hbytes hpackets hnames => ?_⟩
  · rw [Totals.get_setAll, hfields]
  · refine ⟨_, sent_text readable', fun c => ?_⟩
    have hname : (Line.sentName? c).bind s'.last? = (Line.sentName? c).bind s.last? :=
      Option.bind_congr fun name h => by rw [last?, last?, hnames c name h]
    rw [hfields, s'.lastUnder?_sentTokens]
    cases c with
    | sentBytes => rw [field?, field?, hbytes]
    | sentPkts => rw [field?, field?, hpackets]
    | dropped | overlimits | requeues | backlogPkts => exact hname

/-- A line with a counter named twice, an unknown name with a value that cannot be read, and odd separators. -/
def crowded : SentLine where
  bytes := "12"
  packets := "3p"
  pairs := [
    { before := ", ", name := "dropped", gap := " ", value := "dropped" },
    { before := " ", name := "x", gap := " ", value := "²" },
    { before := ",,", name := "overlimits", gap := "  ", value := "2" },
    { before := ",", name := "dropped", gap := " ", value := "4" }]
  after := " ,"

/-- The line with the same counters in another order and with one separator. -/
def plain : SentLine where
  bytes := "12"
  packets := "3p"
  pairs := [
    { before := [], name := "overlimits", gap := " ", value := "2" },
    { before := ", ", name := "dropped", gap := " ", value := "4" }]

theorem readable_crowded : crowded.Readable where
  bytes := ⟨12, by decide +kernel⟩
  packets := ⟨3, by decide +kernel⟩
  values := by
    simp only [crowded, List.forall_mem_cons]
    exact ⟨fun _ => ⟨0, by decide +kernel⟩, fun h => absurd h (by decide),
      fun _ => ⟨2, by decide +kernel⟩, fun _ => ⟨4, by decide +kernel⟩, List.forall_mem_nil _⟩

theorem readable_plain : plain.Readable where
  bytes := ⟨12, by decide +kernel⟩
  packets := ⟨3, by decide +kernel⟩
  values := by
    simp only [plain, List.forall_mem_cons]
    exact ⟨fun _ => ⟨2, by decide +kernel⟩, fun _ => ⟨4, by decide +kernel⟩, List.forall_mem_nil _⟩

theorem sent_reads_crowded :
    crowded.text = "Sent 12 bytes 3p pkt (, dropped dropped x ²,,overlimits  2,dropped 4 ,)" ∧
    plain.text = "Sent 12 bytes 3p pkt (overlimits 2, dropped 4)" ∧
    ∃ changes changes', Line.sent crowded.text = .ok changes ∧ Line.sent plain.text = .ok changes' ∧
      (Total.all.map fun c => lastUnder? c changes) = [some 12, some 3, some 4, some 2, none, none] ∧
      ∀ c, lastUnder? c changes' = lastUnder? c changes := by
  obtain ⟨changes, hsent, hfields, -, hsame⟩ := sent_reads readable_crowded
  obtain ⟨changes', hsent', hsame⟩ := hsame plain readable_plain rfl rfl (by
    intro c
    cases c <;> decide)
  refine ⟨by decide, by decide, changes, changes', hsent, hsent', ?_, hsame⟩
  rw [funext hfields]
  decide +kernel

end SentLine

end CakeMonitor
