import CakeMonitor.Proofs.MultiQueue.Distinct
import CakeMonitor.Proofs.Number.Spoiled
import CakeMonitor.Proofs.Report.PrintedGroup
import CakeMonitor.Proofs.Report.Setters

/-!
# The bytes that a report says were sent

A queue prints its byte total on the line `Sent`. A snapshot has that total whatever else its block holds,
and the snapshots of an interface have together what the queues on it have sent.

* `Line.byteTotal?`: the token of the byte total on a line.
* `Block.sentTotal`, `Block.sentBytes_readLines`: the total of a block is the one of its last such line.
* `Report.queuesOn`, `Report.sentTotal`: the queues on an interface, and the total of all of them.
* `Report.sentBytes_snapshots`: what the snapshots of an interface say.
-/

namespace CakeMonitor

/-- The value of a counter, zero for one that cannot be read. -/
def Counter.value (token : Text) : Nat := (Counter.read token).toOption.getD 0

theorem Counter.value_eq {token : Text} {n : Nat} (h : Counter.read token = .ok n) :
    Counter.value token = n := by
  rw [Counter.value, h]
  rfl

/-! ## A line -/

namespace Line

/-- The token in the place of the byte total, on a `Sent` line of four words or more. -/
def byteTotal? (line : Text) : Option Text :=
  if Text.hasLabel "Sent " line.trim then
    match line.words with
    | _ :: bytes :: _ :: _ :: _ => some bytes
    | _ => none
  else none

theorem words_of_sent {line : Text} (h : Text.hasLabel "Sent " line.trim = true) :
    ∃ ws, line.words = ("Sent" : Text) :: ws := by
  obtain ⟨rest, hrest⟩ := Text.hasLabel_iff.mp h
  have hsplit : line.trim = ("Sent" : Text) ++ Text.space :: rest := hrest
  rw [← Text.words_trim, hsplit, Text.words_append_blank Text.isBlank_space]
  exact ⟨rest.words, rfl⟩

/-- A `Sent` line is one in a table and outside, since its first word does not begin in lower case. -/
theorem classify_of_sent {line : Text} (h : Text.hasLabel "Sent " line.trim = true) (inTable : Bool) :
    classify inTable line = .sent line.trim := by
  obtain ⟨ws, hws⟩ := words_of_sent h
  have hlower : beginsLower ("Sent" : Text) = false := by decide
  unfold classify labelled?
  rw [hws, if_pos h]
  simp [hlower]

theorem labelled?_ne_sent {t : Text} (h : ¬ Text.hasLabel "Sent " t = true) (u : Text) :
    labelled? t ≠ some (.sent u) := by
  intro hsent
  unfold labelled? at hsent
  rw [if_neg h] at hsent
  repeat' split at hsent
  all_goals cases hsent

theorem classify_ne_sent {line : Text} (h : ¬ Text.hasLabel "Sent " line.trim = true) (inTable : Bool)
    (t : Text) : classify inTable line ≠ .sent t := by
  have hlabelled := labelled?_ne_sent h t
  unfold classify
  split
  · nofun
  · split_ifs
    · nofun
    all_goals
      cases hk : labelled? line.trim with
      | none => nofun
      | some k =>
        rintro rfl
        exact hlabelled hk

/-! ## The counters of a `Sent` line -/

/-- Counters are set to the values of their tokens, each under its own name. -/
theorem keys_counted {tokens : List (Total × Text)} {changes : List (Total × Int)}
    (h : (tokens.mapM fun c => counted c.1 c.2) = .ok changes) :
    changes.map (·.1) = tokens.map (·.1) := by
  refine map_eq_of_forall₂ (fun c change hchange => ?_) (forall₂_of_mapM h)
  obtain ⟨n, -, rfl⟩ := map_eq_ok.mp hchange
  rfl

/-- The counters in the parentheses are those that may stand there. -/
theorem mem_sentCounters_of_mem_drops {line : Text} {c : Total} (h : c ∈
    ((sentPairs line).filterMap fun (k, v) => (sentCounter? k).map (·, v)).map (·.1)) :
    c ∈ sentCounters.map (·.2) := by
  obtain ⟨⟨c, v⟩, hc, rfl⟩ := List.mem_map.mp h
  obtain ⟨⟨k, w⟩, -, hk⟩ := List.mem_filterMap.mp hc
  obtain ⟨d, hd, heq⟩ := Option.map_eq_some_iff.mp hk
  obtain ⟨entry, hentry, rfl⟩ := Option.map_eq_some_iff.mp hd
  obtain rfl : entry.2 = c := congrArg Prod.fst heq
  exact List.mem_map_of_mem (List.mem_of_find?_eq_some hentry)

/-- They are no byte totals. -/
theorem sentBytes_not_mem_drops (line : Text) : Total.sentBytes ∉
    ((sentPairs line).filterMap fun (k, v) => (sentCounter? k).map (·, v)).map (·.1) :=
  fun h => absurd (mem_sentCounters_of_mem_drops h) (by decide)

/-- Without bytes and packets the byte total stays. -/
theorem sentBytes_drops {drops : List (Total × Text)} (hdrops : Total.sentBytes ∉ drops.map (·.1))
    {changes : List (Total × Int)} (h : (drops.mapM fun c => counted c.1 c.2) = .ok changes)
    (t : Totals) : (t.setAll changes).sentBytes = t.sentBytes := by
  rw [← keys_counted h] at hdrops
  exact Totals.get_setAll_of_ne hdrops t

/-- With them it is set, and the counters behind them leave it alone. -/
theorem sentBytes_traffic {drops : List (Total × Text)} (hdrops : Total.sentBytes ∉ drops.map (·.1))
    {bytes packets : Text} {changes : List (Total × Int)}
    (h : (((.sentBytes, bytes) :: (.sentPkts, packets) :: drops).mapM fun c => counted c.1 c.2)
      = .ok changes) (t : Totals) : (t.setAll changes).sentBytes = Counter.value bytes := by
  rw [List.mapM_cons] at h
  obtain ⟨first, hfirst, h⟩ := bind_eq_ok.mp h
  obtain ⟨others, hothers, h⟩ := bind_eq_ok.mp h
  obtain rfl := Except.ok.inj h
  obtain ⟨_, hvalue, rfl⟩ := map_eq_ok.mp hfirst
  obtain ⟨n, hn, hvalue⟩ := bind_eq_ok.mp hvalue
  obtain rfl := Except.ok.inj hvalue
  have hrest : Total.sentBytes ∉ ((Total.sentPkts, packets) :: drops).map (·.1) := by
    rw [List.map_cons, List.mem_cons, not_or]
    exact ⟨nofun, hdrops⟩
  have hset : (t.set .sentBytes n).sentBytes = (n : Int) := t.get_set .sentBytes .sentBytes n
  show ((t.set .sentBytes n).setAll others).sentBytes = _
  rw [sentBytes_drops hrest hothers, hset]
  exact congrArg Nat.cast (Counter.value_eq hn).symm

/-- **A `Sent` line sets the byte total to its second word**, if it has four words. -/
theorem sentBytes_sent {line : Text} {changes : List (Total × Int)} (h : sent line = .ok changes)
    (t : Totals) : (t.setAll changes).sentBytes = match line.words with
      | _ :: bytes :: _ :: _ :: _ => (Counter.value bytes : Int)
      | _ => t.sentBytes := by
  have hdrops := sentBytes_not_mem_drops line
  unfold sent at h
  dsimp only at h
  generalize line.words = words at h ⊢
  match words, h with
  | _ :: _ :: _ :: _ :: _, h => exact sentBytes_traffic hdrops h t
  | [], h | [_], h | [_, _], h | [_, _, _], h => exact sentBytes_drops hdrops h t

end Line

/-! ## A block -/

namespace Draft

/-- Lines of other kinds leave the byte total alone. -/
theorem sentBytes_add {d d' : Draft} {k : Line.Kind} (hk : ∀ t, k ≠ .sent t) (h : d.add k = .ok d') :
    d'.snapshot.totals.sentBytes = d.snapshot.totals.sentBytes := by
  cases k with
  | sent line => exact absurd rfl (hk line)
  | backlog line =>
    obtain ⟨backlog, -, rfl⟩ := map_eq_ok.mp h
    cases backlog <;> rfl
  | memory line =>
    obtain rfl := Except.ok.inj h
    cases Line.memory? line <;> rfl
  | _ =>
    obtain rfl := Except.ok.inj h
    rfl

/-- **A line sets the byte total** when it has one. -/
theorem sentBytes_read {d d' : Draft} {line : Text} (h : d.read line = .ok d') :
    d'.snapshot.totals.sentBytes
      = ((Line.byteTotal? line).map fun token => (Counter.value token : Int)).getD
          d.snapshot.totals.sentBytes := by
  unfold read at h
  unfold Line.byteTotal?
  by_cases hlabel : Text.hasLabel "Sent " line.trim = true
  · rw [Line.classify_of_sent hlabel] at h
    obtain ⟨changes, hchanges, rfl⟩ := map_eq_ok.mp h
    have hsent := Line.sentBytes_sent hchanges d.snapshot.totals
    rw [Text.words_trim] at hsent
    show (d.snapshot.totals.setAll changes).sentBytes = _
    rw [hsent, if_pos hlabel]
    split <;> rfl
  · rw [if_neg hlabel]
    exact sentBytes_add (Line.classify_ne_sent hlabel d.inTable) h

/-- Of several lines with a byte total the last one counts. -/
theorem sentBytes_foldlM {lines : List Text} {d d' : Draft} (h : lines.foldlM read d = .ok d') :
    d'.snapshot.totals.sentBytes
      = ((lines.filterMap Line.byteTotal?).getLast?.map fun token => (Counter.value token : Int)).getD
          d.snapshot.totals.sentBytes := by
  induction lines generalizing d with
  | nil =>
    obtain rfl := Except.ok.inj h
    rfl
  | cons line lines ih =>
    rw [List.foldlM_cons] at h
    obtain ⟨d₁, hread, h⟩ := bind_eq_ok.mp h
    rw [ih h, sentBytes_read hread, List.filterMap_cons]
    cases Line.byteTotal? line with
    | none => rfl
    | some token =>
      rw [List.getLast?_cons]
      cases (lines.filterMap Line.byteTotal?).getLast? <;> rfl

end Draft

namespace Block

/-- The byte total of a block: the one of its last `Sent` line that has one, and zero without. -/
def sentTotal (lines : List Text) : Int :=
  (((lines.drop 1).filterMap Line.byteTotal?).getLast?.map fun token =>
    (Counter.value token : Int)).getD 0

/-- The interface that the header of a block names. -/
def interface (lines : List Text) : Text :=
  ((Header.read? (lines.headD [])).map (·.interface)).getD []

/-- Whether the block is of a queue on that interface: a CAKE queue that spreads no packets over others. -/
def isQueueOn (i : Text) (lines : List Text) : Bool :=
  (attachment? (lines.headD [])).any (· ≠ .multiQueue) && decide (interface lines = i)

theorem totals_ofHeader (t : Timestamp) (line : Text) : (Draft.ofHeader t line).snapshot.totals = {} := by
  unfold Draft.ofHeader
  cases Header.read? line <;> rfl

/-- **The snapshot of a block has the byte total of its `Sent` line**, whatever its table of tins holds. -/
theorem sentBytes_readLines {t : Timestamp} {lines : List Text} {s : Snapshot}
    (h : readLines t lines = .ok s) : s.totals.sentBytes = sentTotal lines := by
  obtain ⟨d, hd, h⟩ := bind_eq_ok.mp h
  obtain ⟨tins, -, rfl⟩ := map_eq_ok.mp h
  show d.snapshot.totals.sentBytes = _
  rw [Draft.sentBytes_foldlM hd, totals_ofHeader]
  rfl

theorem interface_readLines {t : Timestamp} {lines : List Text} {s : Snapshot}
    (h : readLines t lines = .ok s) : s.interface = interface lines := by
  obtain ⟨d, hd, h⟩ := bind_eq_ok.mp h
  obtain ⟨tins, -, rfl⟩ := map_eq_ok.mp h
  have hidentity := congrArg Prod.fst (Draft.identity_foldlM hd)
  refine Eq.trans hidentity ?_
  unfold identity Draft.ofHeader interface
  cases Header.read? (lines.headD []) <;> rfl

end Block

/-! ## The snapshots of an interface -/

namespace MultiQueue

/-- The byte total of a snapshot of that interface, zero for any other one. -/
def sentOn (i : Text) (s : Snapshot) : Int := if s.interface = i then s.totals.sentBytes else 0

theorem sum_sentOn (i : Text) (stats : List Snapshot) :
    (stats.map (sentOn i)).sum = ((stats.filter (·.interface = i)).map (·.totals.sentBytes)).sum := by
  induction stats with
  | nil => rfl
  | cons s stats ih =>
    rw [List.map_cons, List.sum_cons, ih, sentOn]
    by_cases hi : s.interface = i
    · simp [hi]
    · simp [hi]

/-- The children of a parent are on its interface. -/
theorem interface_children {blocks : List Block} {k : Key} {c : Snapshot} (h : c ∈ children blocks k) :
    c.interface = k.1 := by
  obtain ⟨b, hb, rfl⟩ := List.mem_map.mp h
  have hkey : childKey? b = some k := by simpa using List.of_mem_filter hb
  unfold childKey? at hkey
  split at hkey
  · obtain rfl := Option.some.inj hkey
    rfl
  · cases hkey

/-- An output has the byte total of its sources, and is on their interface. -/
theorem sentOn_gives {blocks : List Block} (i : Text) (o : Origin) (s : Snapshot)
    (h : Gives blocks o s) : sentOn i s = (o.sources.map (valueAt (sentOn i) blocks)).sum := by
  cases h with
  | kept block other => simp [Origin.sources, valueAt, block]
  | @merged _ b k _ block parent first merge =>
    have htotal := total_mergeQueues merge .sentBytes
    have hchildren (c : Snapshot) (hc : c ∈ children blocks k) :
        sentOn i c = if s.interface = i then c.totals.sentBytes else 0 := by
      rw [sentOn, interface_children hc, interface_parentKey? parent, interface_mergeQueues merge]
    rw [Origin.sources, map_valueAt_childPositions, List.map_congr_left hchildren, sentOn]
    by_cases hi : s.interface = i
    · simp only [if_pos hi]
      exact htotal
    · simp [hi]

end MultiQueue

namespace Report

/-- The queues on an interface. -/
def queuesOn (report : Text) (i : Text) : List (List Text) := (blocks report).filter (Block.isQueueOn i)

/-- The byte total of the queues on an interface. -/
def sentTotal (report : Text) (i : Text) : Int := ((queuesOn report i).map Block.sentTotal).sum

/-- What the queues among some blocks have sent is what their lines say. -/
theorem sum_sentOn_queues {t : Timestamp} (i : Text) {parts : List (List Text)}
    {found : List (Option Block)}
    (h : List.Forall₂ (fun lines b => Block.read? t lines = .ok b) parts found) :
    ((MultiQueue.queues (found.filterMap id)).map (MultiQueue.sentOn i)).sum
      = ((parts.filter (Block.isQueueOn i)).map Block.sentTotal).sum := by
  induction h with
  | nil => rfl
  | @cons lines b _ found hread _ ih =>
    have hon : Block.isQueueOn i lines = ((Block.attachment? (lines.headD [])).any (· ≠ .multiQueue)
        && decide (Block.interface lines = i)) := rfl
    -- a block is no CAKE queue, a parent, or a queue with a snapshot of its own
    unfold Block.read? at hread
    cases hplace : Block.attachment? (lines.headD []) with
    | none =>
      rw [hplace] at hread hon
      obtain rfl := Except.ok.inj hread
      simpa [hon] using ih
    | some attachment =>
      rw [hplace] at hread hon
      obtain ⟨s, hs, rfl⟩ := map_eq_ok.mp hread
      by_cases hmulti : attachment = .multiQueue
      · have hqueue : MultiQueue.queues ((some ⟨s, attachment⟩ :: found).filterMap id)
            = MultiQueue.queues (found.filterMap id) := by
          simp [MultiQueue.queues, MultiQueue.isParent, MultiQueue.parentKey?, hmulti]
        rw [hqueue]
        simpa [hon, hmulti] using ih
      · have hqueue : MultiQueue.queues ((some ⟨s, attachment⟩ :: found).filterMap id)
            = s :: MultiQueue.queues (found.filterMap id) := by
          simp [MultiQueue.queues, MultiQueue.isParent, MultiQueue.parentKey?]
        rw [hqueue, List.map_cons, List.sum_cons, ih, MultiQueue.sentOn, Block.interface_readLines hs,
          Block.sentBytes_readLines hs]
        by_cases hi : Block.interface lines = i
        · simp [hon, hmulti, hi]
        · simp [hon, hi]

/-- **The snapshots of an interface have the byte totals of its queues**, whatever the tables of tins in
the report hold. -/
theorem sentBytes_snapshots {t : Timestamp} {report : Text} {stats : List Snapshot}
    (h : snapshots t report = .ok stats) (i : Text) :
    ((stats.filter (·.interface = i)).map (·.totals.sentBytes)).sum = sentTotal report i := by
  obtain ⟨bs, hbs, hmerge⟩ := bind_eq_ok.mp h
  obtain ⟨found, hfound, rfl⟩ := map_eq_ok.mp hbs
  have haccounts := MultiQueue.accounts_origins hmerge
  rw [← MultiQueue.sum_sentOn, MultiQueue.sum_outputs haccounts _ (MultiQueue.sentOn_gives i),
    sum_sentOn_queues i (forall₂_of_mapM hfound)]
  rfl

end Report

end CakeMonitor
