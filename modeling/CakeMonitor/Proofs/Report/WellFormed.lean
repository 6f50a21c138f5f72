import CakeMonitor.Proofs.Fallible
import CakeMonitor.Report.Block
import CakeMonitor.Report.Structured

/-!
# Well-formed snapshots

No counter that is read from a report is negative, whatever its tokens and numbers are, and no rate is
known from one report alone. The options of a printed report that stand for a choice have one of the
values that the header knows: a value that follows the word announcing it goes to an option that takes
any text.

* `Snapshot.WellFormed`: counters that are not negative, and no rates.
* `TextOption.Allows`, `Options.Known`: the values of the options that a header can set.
* `Draft.Sound`: both, of a snapshot in the making; `Draft.Sound.add` says that every kind of line keeps it.
* `Report.sound_cakeBlocks`: the queues of a printed report.
* `Structured.wellFormed_snapshots`: the snapshots of a structured one.
-/

namespace CakeMonitor

/-! ## Counters -/

/-- No counter of the queue is negative. -/
def Totals.NonNegative (t : Totals) : Prop := ∀ c, 0 ≤ t.get c

/-- No counter of the tin is negative. -/
def TinCounters.NonNegative (t : TinCounters) : Prop := ∀ c, 0 ≤ t.get c

/-- A snapshot without negative counters and without rates. -/
structure Snapshot.WellFormed (s : Snapshot) : Prop where
  totals : s.totals.NonNegative
  tins : ∀ tin ∈ s.tins, tin.counters.NonNegative
  rates : s.rates = {}

/-- A count is not negative as an integer. -/
theorem nonNegative_cast {x : Except NumberError Nat} {i : Int}
    (h : (x >>= fun n => pure (n : Int)) = .ok i) : 0 ≤ i := by
  obtain ⟨n, -, h⟩ := bind_eq_ok.mp h
  obtain rfl := Except.ok.inj h
  exact Int.natCast_nonneg n

namespace Totals

theorem nonNegative_empty : ({} : Totals).NonNegative := fun c => by cases c <;> decide

theorem NonNegative.set {t : Totals} (h : t.NonNegative) (c : Total) {n : Int} (hn : 0 ≤ n) :
    (t.set c n).NonNegative := by
  intro d
  rw [get_set]
  split
  · exact hn
  · exact h d

theorem NonNegative.setAll {t : Totals} (h : t.NonNegative) :
    ∀ {changes : List (Total × Int)}, (∀ c ∈ changes, 0 ≤ c.2) → (t.setAll changes).NonNegative
  | [], _ => h
  | c :: _, hc =>
    (h.set c.1 (hc c List.mem_cons_self)).setAll fun d hd => hc d (List.mem_cons_of_mem c hd)

end Totals

namespace TinCounters

theorem nonNegative_empty : ({} : TinCounters).NonNegative := fun c => by cases c <;> decide

theorem NonNegative.set {t : TinCounters} (h : t.NonNegative) (c : TinCounter) {n : Int}
    (hn : 0 ≤ n) : (t.set c n).NonNegative := by
  intro d
  rw [get_set]
  split
  · exact hn
  · exact h d

/-- Counters that are read one by one, none of them negative. -/
theorem nonNegative_read {ε : Type} {f : TinCounter → Except ε Int} {t : TinCounters}
    (hf : ∀ c n, f c = .ok n → 0 ≤ n) (h : read f = .ok t) : t.NonNegative := by
  refine foldlM_preserves (P := NonNegative) ?_ h nonNegative_empty
  intro t c t' hstep ht
  obtain ⟨n, hn, rfl⟩ := map_eq_ok.mp hstep
  exact ht.set c (hf c n hn)

end TinCounters

/-! ## Options -/

namespace TextOption

/-- The values that a header can give an option; without a header it is empty, or `egress`. -/
def Allows : TextOption → Text → Prop
  | .direction, t => t = "egress" ∨ t = "ingress"
  | .atmMode, t => t = [] ∨ t = "atm" ∨ t = "ptm"
  | .diffservMode, t => t = [] ∨ t ∈ Header.diffservModes
  | .flowMode, t => t = [] ∨ t ∈ Header.flowModes
  | _, _ => True

instance : (o : TextOption) → (t : Text) → Decidable (o.Allows t)
  | .direction, t => inferInstanceAs (Decidable (t = "egress" ∨ t = "ingress"))
  | .atmMode, t => inferInstanceAs (Decidable (t = [] ∨ t = "atm" ∨ t = "ptm"))
  | .diffservMode, t => inferInstanceAs (Decidable (t = [] ∨ t ∈ Header.diffservModes))
  | .flowMode, t => inferInstanceAs (Decidable (t = [] ∨ t ∈ Header.flowModes))
  | .bandwidth, _ | .rtt, _ | .overhead, _ | .mpu, _ | .fwmarkMask, _ | .memlimit, _ =>
    inferInstanceAs (Decidable True)

end TextOption

/-- A change to a value that a header can give. -/
def OptionChange.Allowed : OptionChange → Prop
  | .text option value => option.Allows value
  | .switch _ _ => True

instance : (c : OptionChange) → Decidable c.Allowed
  | .text option value => inferInstanceAs (Decidable (option.Allows value))
  | .switch _ _ => inferInstanceAs (Decidable True)

/-- Every option has a value that a header can give. -/
def Options.Known (o : Options) : Prop := ∀ k : TextOption, k.Allows (o.text k)

namespace Options

theorem known_default : ({} : Options).Known := fun k => by cases k <;> decide

theorem Known.set {o : Options} (h : o.Known) {c : OptionChange} (hc : c.Allowed) :
    (o.set c).Known := by
  intro k
  rw [text_set]
  cases c with
  | switch s on => exact h k
  | text j v =>
    show k.Allows (if k = j then v else o.text k)
    split_ifs with hk
    · subst hk
      exact hc
    · exact h k

theorem Known.setAll {o : Options} (h : o.Known) :
    ∀ {changes : List OptionChange}, (∀ c ∈ changes, c.Allowed) → (o.setAll changes).Known
  | [], _ => h
  | c :: _, hc =>
    (h.set (hc c List.mem_cons_self)).setAll fun d hd => hc d (List.mem_cons_of_mem c hd)

end Options

namespace Header

/-- The options whose value follows in a word of its own take any text. -/
theorem allows_of_argument? {word : Text} {o : TextOption} (h : argument? word = some o) (v : Text) :
    o.Allows v := by
  obtain ⟨a, ha, rfl⟩ := Option.map_eq_some_iff.mp h
  have hfree : ∀ a ∈ arguments, a.2 ∉ [.direction, .atmMode, .diffservMode, .flowMode] := by decide
  have := hfree a (List.mem_of_find?_eq_some ha)
  generalize a.2 = o at this
  cases o <;> trivial

theorem allowed_of_keyword? {word : Text} {c : OptionChange} (h : keyword? word = some c) :
    c.Allowed := by
  unfold keyword? at h
  split_ifs at h with hdiffserv hflow
  · obtain rfl := Option.some.inj h
    exact .inr hdiffserv
  · obtain rfl := Option.some.inj h
    exact .inr hflow
  · obtain ⟨f, hf, rfl⟩ := Option.map_eq_some_iff.mp h
    have hflags : ∀ f ∈ flags, f.2.Allowed := by decide
    exact hflags f (List.mem_of_find?_eq_some hf)

/-- The words of a header set options to values that are allowed. -/
theorem allowed_optionChanges (words : List Text) : ∀ c ∈ optionChanges words, c.Allowed := by
  fun_induction optionChanges words with
  | case1 => exact List.forall_mem_nil _
  | case2 w o ho => exact List.forall_mem_nil _
  | case3 w o ho v ws ih => exact List.forall_mem_cons.mpr ⟨allows_of_argument? ho v, ih⟩
  | case4 w ws hw ih =>
    intro c hc
    rcases List.mem_append.mp hc with hc | hc
    · exact allowed_of_keyword? (Option.mem_toList.mp hc)
    · exact ih c hc

theorem allowed_of_read? {line : Text} {h : Header} (hread : read? line = some h) :
    ∀ c ∈ h.changes, c.Allowed := by
  unfold read? at hread
  split at hread
  · obtain rfl := Option.some.inj hread
    exact List.forall_mem_cons.mpr ⟨.inl rfl, allowed_optionChanges _⟩
  · cases hread

end Header

/-! ## The lines of a queue -/

namespace Line

theorem nonNegative_sent {line : Text} {changes : List (Total × Int)} (h : sent line = .ok changes) :
    ∀ c ∈ changes, 0 ≤ c.2 := by
  refine forall_of_mapM ?_ h
  rintro ⟨c, token⟩ change hchange
  obtain ⟨n, hn, rfl⟩ := map_eq_ok.mp hchange
  exact nonNegative_cast hn

theorem nonNegative_backlog? {line bytes : Text} {packets : Int}
    (h : backlog? line = .ok (some (bytes, packets))) : 0 ≤ packets := by
  unfold backlog? at h
  split at h
  · obtain ⟨n, -, h⟩ := bind_eq_ok.mp h
    cases h
    exact Int.natCast_nonneg n
  · cases h

end Line

namespace TinTable

theorem nonNegative_tin {rows : Rows} {name : Text} {column : Nat} {t : Tin}
    (h : tin rows name column = .ok t) : t.counters.NonNegative := by
  obtain ⟨counters, hcounters, h⟩ := bind_eq_ok.mp h
  obtain rfl := Except.ok.inj h
  refine TinCounters.nonNegative_read (fun c n hn => ?_) hcounters
  obtain ⟨m, hm, rfl⟩ := map_eq_ok.mp hn
  exact nonNegative_cast hm

theorem nonNegative_assemble {names : List Text} {rows : Rows} {tins : List Tin}
    (h : assemble names rows = .ok tins) : ∀ t ∈ tins, t.counters.NonNegative :=
  forall_of_mapM (fun _ _ => nonNegative_tin) h

end TinTable

/-- A snapshot as a printed report gives it: well formed, and the header gave its options. -/
structure Snapshot.Sound (s : Snapshot) : Prop extends s.WellFormed where
  options : s.options.Known

namespace Draft

/-- **The snapshot in the making** is sound throughout. -/
def Sound (d : Draft) : Prop := d.snapshot.Sound

theorem sound_ofHeader (t : Timestamp) (line : Text) : (ofHeader t line).Sound := by
  have hcounters : ∀ options : Options, options.Known → ∀ handle interface : Text,
      Snapshot.Sound { rawHeader := line.trim, updatedAt := t, handle, interface, options } := by
    intro options hknown handle interface
    exact ⟨⟨Totals.nonNegative_empty, List.forall_mem_nil _, rfl⟩, hknown⟩
  unfold ofHeader
  cases hread : Header.read? line with
  | none => exact hcounters {} Options.known_default [] []
  | some h =>
    have hknown := Options.known_default.setAll (Header.allowed_of_read? hread)
    exact hcounters _ hknown h.handle h.interface

theorem Sound.setTotals {d : Draft} (h : d.Sound) {changes : List (Total × Int)}
    (hc : ∀ c ∈ changes, 0 ≤ c.2) : (d.setTotals changes).Sound :=
  ⟨⟨h.totals.setAll hc, h.tins, h.rates⟩, h.options⟩

/-- **Every kind of line keeps it.** Only counters and texts without a choice are set. -/
theorem Sound.add {d d' : Draft} (h : d.Sound) {kind : Line.Kind} (hadd : d.add kind = .ok d') :
    d'.Sound := by
  cases kind with
  | row key values =>
    obtain rfl := Except.ok.inj hadd
    exact h
  | sent line =>
    obtain ⟨changes, hchanges, rfl⟩ := map_eq_ok.mp hadd
    exact h.setTotals (Line.nonNegative_sent hchanges)
  | backlog line =>
    obtain ⟨change, hchange, rfl⟩ := map_eq_ok.mp hadd
    cases change with
    | none => exact h
    | some change =>
      have hpackets := List.forall_mem_singleton (p := fun c : Total × Int => 0 ≤ c.2)
        (a := (.backlogPkts, change.2)) |>.mpr (Line.nonNegative_backlog? hchange)
      have hset := h.setTotals hpackets
      exact ⟨⟨hset.totals, hset.tins, hset.rates⟩, hset.options⟩
  | memory line =>
    obtain rfl := Except.ok.inj hadd
    cases Line.memory? line with
    | none => exact h
    | some sizes => exact ⟨⟨h.totals, h.tins, h.rates⟩, h.options⟩
  | tinNames words =>
    obtain rfl := Except.ok.inj hadd
    exact h
  | other =>
    obtain rfl := Except.ok.inj hadd
    exact h
  | capacity _ | headerOffset _ | netSizes _ | adjustedSizes _ =>
    obtain rfl := Except.ok.inj hadd
    exact ⟨⟨h.totals, h.tins, h.rates⟩, h.options⟩

theorem Sound.read {d d' : Draft} {lines : List Text} (h : d.Sound)
    (hread : lines.foldlM Draft.read d = .ok d') : d'.Sound :=
  foldlM_preserves (P := Sound) (fun _ _ _ hadd hd => hd.add hadd) hread h

theorem Sound.finish {d : Draft} {s : Snapshot} (h : d.Sound) (hfinish : d.finish = .ok s) :
    s.Sound := by
  obtain ⟨tins, htins, rfl⟩ := map_eq_ok.mp hfinish
  exact ⟨⟨h.totals, TinTable.nonNegative_assemble htins, h.rates⟩, h.options⟩

end Draft

namespace Block

theorem sound_readLines {t : Timestamp} {lines : List Text} {s : Snapshot}
    (h : readLines t lines = .ok s) : s.Sound := by
  obtain ⟨draft, hdraft, hfinish⟩ := bind_eq_ok.mp h
  exact ((Draft.sound_ofHeader t _).read hdraft).finish hfinish

theorem sound_read? {t : Timestamp} {lines : List Text} {b : Block}
    (h : read? t lines = .ok (some b)) : b.snapshot.Sound := by
  unfold read? at h
  split at h
  · cases h
  · obtain ⟨s, hs, hb⟩ := map_eq_ok.mp h
    obtain rfl := Option.some.inj hb
    exact sound_readLines hs

end Block

/-- **The queues of a printed report are sound.** -/
theorem Report.sound_cakeBlocks {t : Timestamp} {report : Text} {blocks : List Block}
    (h : cakeBlocks t report = .ok blocks) : ∀ b ∈ blocks, b.snapshot.Sound := by
  obtain ⟨all, hall, rfl⟩ := map_eq_ok.mp h
  have heach : ∀ block? ∈ all, ∀ b, block? = some b → b.snapshot.Sound := by
    refine forall_of_mapM (fun lines block? hread b hb => ?_) hall
    subst hb
    exact Block.sound_read? hread
  intro b hb
  obtain ⟨block?, hmem, hsome⟩ := List.mem_filterMap.mp hb
  exact heach block? hmem b hsome

/-! ## Structured reports -/

namespace Structured

/-- A table of keys sets counters to counts. -/
theorem nonNegative_counted {entry : Json} {key : String} {c : Total} {t t' : Totals}
    (h : (do return ((← countOf? key entry).map fun n => t.set c n).getD t) = .ok t')
    (ht : t.NonNegative) : t'.NonNegative := by
  obtain ⟨n, -, h⟩ := bind_eq_ok.mp h
  obtain rfl := Except.ok.inj h
  cases n with
  | none => exact ht
  | some n => exact ht.set c (Int.natCast_nonneg n)

theorem nonNegative_tin {entry : Json} {t : Tin} (h : tin entry = .ok t) :
    t.counters.NonNegative := by
  obtain ⟨thresh, -, h⟩ := bind_eq_ok.mp h
  obtain ⟨counters, hcounters, h⟩ := bind_eq_ok.mp h
  obtain rfl := Except.ok.inj h
  refine foldlM_preserves (P := TinCounters.NonNegative) ?_ hcounters TinCounters.nonNegative_empty
  rintro t ⟨key, c⟩ t' hstep ht
  obtain ⟨n, -, hstep⟩ := bind_eq_ok.mp hstep
  obtain rfl := Except.ok.inj hstep
  cases n with
  | none => exact ht
  | some n => exact ht.set c (Int.natCast_nonneg n)

theorem nonNegative_tins {entries : List Json} {ts : List Tin} (h : tins entries = .ok ts) :
    ∀ t ∈ ts, t.counters.NonNegative :=
  forall_of_mapM (fun _ _ => nonNegative_tin) h

theorem wellFormed_snapshot {t : Timestamp} {entry : Json} {s : Snapshot}
    (h : snapshot t entry = .ok s) : s.WellFormed := by
  unfold snapshot at h
  extract_lets rest at h
  have hrest {changes : List OptionChange} (h : rest changes = .ok s) : s.WellFormed := by
    unfold rest at h
    obtain ⟨totals, htotals, h⟩ := bind_eq_ok.mp h
    have htotals : totals.NonNegative :=
      foldlM_preserves (P := Totals.NonNegative) (fun _ _ _ => nonNegative_counted) htotals
        Totals.nonNegative_empty
    obtain ⟨memoryUsed, -, h⟩ := bind_eq_ok.mp h
    obtain ⟨memoryLimit, -, h⟩ := bind_eq_ok.mp h
    obtain ⟨capacity, -, h⟩ := bind_eq_ok.mp h
    obtain ⟨minNet, -, h⟩ := bind_eq_ok.mp h
    obtain ⟨maxNet, -, h⟩ := bind_eq_ok.mp h
    obtain ⟨headerOffset, -, h⟩ := bind_eq_ok.mp h
    extract_lets finish at h
    have hfinish {ts : List Tin} (hts : ∀ t ∈ ts, t.counters.NonNegative)
        (h : finish ts = .ok s) : s.WellFormed := by
      obtain rfl := Except.ok.inj h
      exact ⟨htotals, hts, rfl⟩
    split at h
    · obtain ⟨ts, hts, h⟩ := bind_eq_ok.mp h
      exact hfinish (nonNegative_tins hts) h
    · exact hfinish (List.forall_mem_nil _) h
  split at h
  · obtain ⟨changes, -, h⟩ := bind_eq_ok.mp h
    exact hrest h
  · exact hrest h

/-- **The snapshots of a document are well formed.** -/
theorem wellFormed_snapshots {t : Timestamp} {document : Option Json} {stats : List Snapshot}
    (h : snapshots t document = .ok stats) : ∀ s ∈ stats, s.WellFormed := by
  match document with
  | some (.array entries) =>
    exact forall_of_mapM (fun _ _ => wellFormed_snapshot) (mapError_eq_ok.mp h)
  | none | some .null | some (.bool _) | some (.int _) | some (.real _) | some (.text _)
  | some (.object _) => cases h

end Structured

end CakeMonitor
