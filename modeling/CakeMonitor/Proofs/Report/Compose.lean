import CakeMonitor.Proofs.MultiQueue.Local
import CakeMonitor.Proofs.Report.Legible
import CakeMonitor.Proofs.Report.RoundTrip

/-!
# Reports compose

A report that ends where a line does, and another that begins with a block, put one behind the other:
the blocks are those of the first and then those of the second, for nothing that is read in one of
them depends on the other. Only a merge looks further than a block, and it does not look further than
an interface.

* `group_append`: the lines of a report fall into blocks one block after the other.
* `cakeBlocks_append`: the CAKE queues of two reports.
* `cakeBlocks_insert`: queues of other disciplines between them.
* `textOf_append`: the same seam in octets.
* `snapshots_append`: reports compose, as texts and as octets.
-/

namespace CakeMonitor

open Text (newline)

namespace Report

/-- A report that is empty or ends where a line does. -/
def Complete (r : Text) : Prop := ∀ c ∈ r.getLast?, c = newline

/-- A report that begins with a block. -/
def Begins (r : Text) : Prop := Text.hasLabel "qdisc " r = true

instance (r : Text) : Decidable (Complete r) :=
  inferInstanceAs (Decidable (∀ c ∈ r.getLast?, c = newline))

instance (r : Text) : Decidable (Begins r) :=
  inferInstanceAs (Decidable (Text.hasLabel "qdisc " r = true))

/-! ## Blocks -/

theorem addLine_cons (l header : Text) (body : List Text) (bs : List (List Text)) :
    addLine l ((header :: body) :: bs) = if isHeader header = true then [l] :: (header :: body) :: bs
      else (l :: header :: body) :: bs := rfl

theorem addLine_append (l : Text) {bs : List (List Text)} (h : bs ≠ []) (cs : List (List Text)) :
    addLine l (bs ++ cs) = addLine l bs ++ cs := by
  cases bs with
  | nil => exact absurd rfl h
  | cons b bs =>
    rw [List.cons_append, addLine, addLine]
    split <;> rfl

theorem group_cons (l : Text) (ls : List Text) : group (l :: ls) = addLine l (group ls) := rfl

theorem exists_group_cons (l : Text) (ls : List Text) : ∃ b bs, group (l :: ls) = (l :: b) :: bs := by
  rw [group_cons]
  cases group ls with
  | nil => exact ⟨[], [], rfl⟩
  | cons b bs =>
    rw [addLine]
    split
    · exact ⟨[], b :: bs, rfl⟩
    · exact ⟨b, bs, rfl⟩

theorem group_ne_nil (l : Text) (ls : List Text) : group (l :: ls) ≠ [] := by
  obtain ⟨b, bs, h⟩ := exists_group_cons l ls
  rw [h]
  exact List.cons_ne_nil _ _

/-- **A header begins a new block**, whatever stands in front of it. -/
theorem group_append {m : Text} (hm : isHeader m = true) (ms : List Text) :
    ∀ ls, group (ls ++ m :: ms) = group ls ++ group (m :: ms)
  | [] => rfl
  | [l] => by
    obtain ⟨b, bs, h⟩ := exists_group_cons m ms
    rw [List.singleton_append, group_cons, h, addLine_cons, if_pos hm]
    rfl
  | l :: l' :: ls => by
    rw [List.cons_append, group_cons, group_append hm ms (l' :: ls), group_cons l,
      addLine_append l (group_ne_nil l' ls)]

/-- An empty line at the end belongs to the last block. -/
theorem group_append_blank : ∀ (l : Text) (ls : List Text), ∃ front header body,
    group (l :: ls) = front ++ [header :: body] ∧
      group (l :: ls ++ [[]]) = front ++ [header :: body ++ [[]]]
  | l, [] => ⟨[], l, [], rfl, rfl⟩
  | l, l' :: ls => by
    obtain ⟨front, header, body, hwithout, hwith⟩ := group_append_blank l' ls
    rw [List.cons_append, group_cons l, group_cons l, hwithout, hwith]
    cases front with
    | nil =>
      rw [List.nil_append, List.nil_append, List.cons_append, addLine_cons, addLine_cons]
      split
      · exact ⟨[[l]], header, body, rfl, rfl⟩
      · exact ⟨[], l, header :: body, rfl, rfl⟩
    | cons b bs =>
      rw [addLine_append l (List.cons_ne_nil b bs), addLine_append l (List.cons_ne_nil b bs)]
      exact ⟨addLine l (b :: bs), header, body, rfl, rfl⟩

end Report

namespace Block

/-- An empty line at the end of a block says nothing. -/
theorem read?_append_blank (t : Timestamp) (header : Text) (body : List Text) :
    read? t (header :: body ++ [[]]) = read? t (header :: body) := by
  have hlines : readLines t (header :: body ++ [[]]) = readLines t (header :: body) := by
    have hblank : ∀ d : Draft, ([[]] : List Text).foldlM Draft.read d = .ok d := fun d =>
      d.foldlM_blank_lines 1
    simp only [readLines, List.cons_append, List.headD_cons, List.drop_succ_cons, List.drop_zero,
      List.foldlM_append, hblank, bind_assoc]
    rfl
  rw [read?, hlines]
  rfl

end Block

namespace Report

variable {t : Timestamp}

/-- The CAKE queues of some lines. -/
def cakeLines (t : Timestamp) (ls : List Text) : Except NumberError (List Block) :=
  ((group ls).mapM (Block.read? t)).map (·.filterMap id)

theorem cakeLines_append_blank (l : Text) (ls : List Text) :
    cakeLines t (l :: ls ++ [[]]) = cakeLines t (l :: ls) := by
  obtain ⟨front, header, body, hwithout, hwith⟩ := group_append_blank l ls
  have hlast : [header :: body ++ [[]]].mapM (Block.read? t) = [header :: body].mapM (Block.read? t) := by
    rw [List.mapM_cons, List.mapM_cons, Block.read?_append_blank]
  rw [cakeLines, cakeLines, hwithout, hwith, List.mapM_append, List.mapM_append, hlast]

theorem cakeLines_append {m : Text} (hm : isHeader m = true) (ls ms : List Text) :
    cakeLines t (ls ++ m :: ms)
      = (do return (← cakeLines t ls) ++ (← cakeLines t (m :: ms))) := by
  rw [cakeLines, cakeLines, cakeLines, group_append hm, List.mapM_append]
  cases (group ls).mapM (Block.read? t) with
  | error e => rfl
  | ok bs =>
    cases (group (m :: ms)).mapM (Block.read? t) with
    | error e => rfl
    | ok cs => exact congrArg Except.ok List.filterMap_append

theorem exists_lines_of_begins {r : Text} (h : Begins r) :
    ∃ m ms, r.lines = m :: ms ∧ isHeader m = true := by
  obtain ⟨rest, rfl⟩ := Text.hasLabel_iff.mp h
  obtain ⟨p, ps, hp⟩ := List.exists_cons_of_ne_nil (Text.pieces_ne_nil newline rest)
  exact ⟨_, ps, Text.pieces_append_of_not_mem (by decide) hp, Text.hasLabel_append _ _⟩

/-- **The CAKE queues of two reports** are those of the first and then those of the second. -/
theorem cakeBlocks_append {r₁ r₂ : Text} (h₁ : Complete r₁) (h₂ : Begins r₂) :
    cakeBlocks t (r₁ ++ r₂) = (do return (← cakeBlocks t r₁) ++ (← cakeBlocks t r₂)) := by
  obtain ⟨m, ms, hlines, hm⟩ := exists_lines_of_begins h₂
  rcases List.eq_nil_or_concat' r₁ with rfl | ⟨r, c, rfl⟩
  · show _ = cakeBlocks t r₂ >>= fun l => pure l
    rw [bind_pure]
    rfl
  · obtain rfl : c = newline := h₁ c (by simp)
    obtain ⟨l, ls, hfront⟩ := List.exists_cons_of_ne_nil (Text.pieces_ne_nil newline r)
    have hseam : Text.lines (r ++ [newline] ++ r₂) = l :: ls ++ m :: ms := by
      rw [List.append_assoc, List.singleton_append, Text.lines_append_newline, hlines]
      exact congrArg (· ++ m :: ms) hfront
    have hfirst : Text.lines (r ++ [newline]) = l :: ls ++ [[]] := by
      rw [Text.lines_append_newline]
      exact congrArg (· ++ [[]]) hfront
    show cakeLines t _ = do return (← cakeLines t _) ++ (← cakeLines t _)
    rw [hseam, hfirst, hlines, cakeLines_append hm, cakeLines_append_blank]

theorem Begins.append {r : Text} (h : Begins r) (r' : Text) : Begins (r ++ r') := by
  obtain ⟨rest, rfl⟩ := Text.hasLabel_iff.mp h
  rw [List.append_assoc]
  exact Text.hasLabel_append _ _

theorem cakeBlocks_of_no_cake {r : Text} (h : ∀ b ∈ blocks r, Block.isCake b = false) :
    cakeBlocks t r = .ok [] := by
  have hread : ∀ b ∈ blocks r, Block.read? t b = .ok none := by
    intro b hb
    have hnone : Block.attachment? (b.headD []) = none := Option.not_isSome_iff_eq_none.mp <| by
      rw [Bool.not_eq_true]
      exact h b hb
    rw [Block.read?, hnone]
  rw [cakeBlocks, mapM_eq_ok hread, Except.map, List.filterMap_map]
  exact congrArg Except.ok (List.filterMap_eq_nil_iff.mpr fun _ _ => rfl)

/-- **Queues of other disciplines between two reports** change nothing. -/
theorem cakeBlocks_insert {r₁ r r₂ : Text} (h₁ : Complete r₁) (h : Complete r) (hbegins : Begins r)
    (h₂ : Begins r₂) (hother : ∀ b ∈ blocks r, Block.isCake b = false) :
    cakeBlocks t (r₁ ++ r ++ r₂) = cakeBlocks t (r₁ ++ r₂) := by
  have hrest : cakeBlocks t (r ++ r₂) = cakeBlocks t r₂ := by
    rw [cakeBlocks_append h h₂, cakeBlocks_of_no_cake hother]
    exact bind_pure (cakeBlocks t r₂)
  rw [List.append_assoc, cakeBlocks_append h₁ (hbegins.append r₂), hrest, cakeBlocks_append h₁ h₂]

/-! ## Snapshots -/

theorem snapshots_of_cakeBlocks {r : Text} {l : List Block} (h : cakeBlocks t r = .ok l) :
    snapshots t r = MultiQueue.merge l := by
  rw [snapshots, h]
  rfl

/-- Reports without a common interface are merged apart. -/
theorem snapshots_append {r₁ r₂ : Text} (h₁ : Complete r₁) (h₂ : Begins r₂) {l₁ l₂ : List Block}
    (hl₁ : cakeBlocks t r₁ = .ok l₁) (hl₂ : cakeBlocks t r₂ = .ok l₂)
    (hapart : ∀ b ∈ l₁, ∀ c ∈ l₂, b.snapshot.interface ≠ c.snapshot.interface) :
    snapshots t (r₁ ++ r₂) = (do return (← snapshots t r₁) ++ (← snapshots t r₂)) := by
  have hl : cakeBlocks t (r₁ ++ r₂) = .ok (l₁ ++ l₂) := by
    rw [cakeBlocks_append h₁ h₂, hl₁, hl₂]
    rfl
  rw [snapshots_of_cakeBlocks hl, snapshots_of_cakeBlocks hl₁, snapshots_of_cakeBlocks hl₂,
    MultiQueue.merge_append hapart]

end Report

/-! ## Octets -/

namespace Utf8

/-- Only octets that continue a sequence are awaited. -/
def AwaitsTail : Option Pending → Prop
  | none => True
  | some p => 0x80 ≤ p.next.1 ∧ ∀ r ∈ p.later, 0x80 ≤ r.1

variable {surrogates : Bool}

theorem awaitsTail_first (b : Nat) : AwaitsTail (first surrogates b).2 := by
  have htail : 0x80 ≤ tail.1 := Nat.le_refl _
  unfold first lead
  split_ifs <;> simp [AwaitsTail, htail]

theorem awaitsTail_step {p : Option Pending} (h : AwaitsTail p) (b : Nat) :
    AwaitsTail (step surrogates b p).2 := by
  cases p with
  | none => exact awaitsTail_first b
  | some p =>
    rw [step]
    split_ifs
    · obtain ⟨-, hlater⟩ := h
      cases hp : p.later with
      | nil => trivial
      | cons r rs =>
        rw [hp] at hlater
        exact List.forall_mem_cons.mp hlater
    · exact awaitsTail_first b

theorem first_ascii {b : Nat} (hb : b < 0x80) : first surrogates b = ([some (.ofNat b)], none) := by
  rw [first, lead, if_pos hb]

/-- An ASCII octet is read as itself, behind a malformed part if a sequence was begun. -/
theorem step_ascii {b : Nat} (hb : b < 0x80) {p : Option Pending} (h : AwaitsTail p) :
    ∃ out, step surrogates b p = (out ++ [some (.ofNat b)], none) := by
  cases p with
  | none => exact ⟨[], first_ascii hb⟩
  | some p =>
    have hrange : ¬ (p.next.1 ≤ b ∧ b ≤ p.next.2) := fun hle => by
      have hnext := h.1
      omega
    rw [step, if_neg hrange, first_ascii hb]
    exact ⟨[none], rfl⟩

theorem scanFrom_cons (p : Option Pending) (b : UInt8) (bs : Octets) :
    scanFrom surrogates p (b :: bs)
      = (step surrogates b.toNat p).1 ++ scanFrom surrogates (step surrogates b.toNat p).2 bs := by
  cases p <;> rfl

/-- **An ASCII octet begins anew**: what stands in front of it and what stands behind it are read
apart. -/
theorem scanFrom_append_ascii {b : UInt8} (hb : b.toNat < 0x80) :
    ∀ (front : Octets) {p : Option Pending}, AwaitsTail p → ∃ out, ∀ rest,
      scanFrom surrogates p (front ++ b :: rest)
        = out ++ some (.ofNat b.toNat) :: scanFrom surrogates none rest
  | [], p, h => by
    obtain ⟨out, hstep⟩ : ∃ out, step surrogates b.toNat p = (out ++ [some (.ofNat b.toNat)], none) :=
      step_ascii hb h
    refine ⟨out, fun rest => ?_⟩
    rw [List.nil_append, scanFrom_cons, hstep, List.append_assoc, List.singleton_append]
  | c :: front, p, h => by
    obtain ⟨out, hout⟩ := scanFrom_append_ascii hb front (awaitsTail_step h c.toNat)
    refine ⟨(step surrogates c.toNat p).1 ++ out, fun rest => ?_⟩
    rw [List.cons_append, scanFrom_cons, hout, List.append_assoc]

end Utf8

namespace Report

/-- Octets of a report that is empty or ends where a line does. -/
def CompleteOctets (o : Octets) : Prop := ∀ b ∈ o.getLast?, b = 0x0a

/-- Octets of a report that begins with a block. -/
def BeginsOctets (o : Octets) : Prop := Utf8.encode "qdisc " <+: o

instance (o : Octets) : Decidable (CompleteOctets o) :=
  inferInstanceAs (Decidable (∀ b ∈ o.getLast?, b = 0x0a))

instance (o : Octets) : Decidable (BeginsOctets o) :=
  inferInstanceAs (Decidable (Utf8.encode "qdisc " <+: o))

/-- **The seam in octets**: the text of a report is cut where its octets are. -/
theorem textOf_append {o₁ o₂ : Octets} (h₁ : CompleteOctets o₁) (h₂ : BeginsOctets o₂) :
    textOf (o₁ ++ o₂) = textOf o₁ ++ textOf o₂ ∧ Complete (textOf o₁) ∧ Begins (textOf o₂) := by
  have hbegins : Begins (textOf o₂) := by
    obtain ⟨rest, rfl⟩ := h₂
    exact Text.hasLabel_append "qdisc " (textOf rest)
  rcases List.eq_nil_or_concat' o₁ with rfl | ⟨o, b, rfl⟩
  · exact ⟨rfl, nofun, hbegins⟩
  · obtain rfl : b = 0x0a := h₁ b (by simp)
    obtain ⟨out, hout⟩ : ∃ out, ∀ rest, Utf8.scanFrom false none (o ++ 0x0a :: rest)
        = out ++ some newline :: Utf8.scanFrom false none rest :=
      Utf8.scanFrom_append_ascii (by decide) o trivial
    have htext (rest : Octets) : textOf (o ++ 0x0a :: rest)
        = out.map (·.getD .replacement) ++ newline :: textOf rest := by
      rw [textOf, Utf8.decodeLossy, Utf8.scan, hout, List.map_append]
      rfl
    refine ⟨?_, ?_, hbegins⟩
    · rw [List.append_assoc, List.singleton_append, htext, htext, List.append_assoc]
      rfl
    · intro c hc
      have hlast : (textOf (o ++ [0x0a])).getLast? = some newline := by
        rw [htext]
        exact List.getLast?_concat
      exact Option.some.inj (hc.symm.trans hlast)

/-- **Reports compose**, as texts and as octets: their CAKE queues stand one behind the other, queues of
other disciplines between them change nothing, and without a common interface so do their snapshots. -/
theorem reports_compose (t : Timestamp) :
    (∀ r₁ r₂ : Text, Complete r₁ → Begins r₂ →
      cakeBlocks t (r₁ ++ r₂) = (do return (← cakeBlocks t r₁) ++ (← cakeBlocks t r₂)) ∧
      (∀ r, Complete r → Begins r → (∀ b ∈ blocks r, Block.isCake b = false) →
        cakeBlocks t (r₁ ++ r ++ r₂) = cakeBlocks t (r₁ ++ r₂) ∧
          snapshots t (r₁ ++ r ++ r₂) = snapshots t (r₁ ++ r₂)) ∧
      ∀ l₁ l₂, cakeBlocks t r₁ = .ok l₁ → cakeBlocks t r₂ = .ok l₂ →
        (∀ b ∈ l₁, ∀ c ∈ l₂, b.snapshot.interface ≠ c.snapshot.interface) →
        snapshots t (r₁ ++ r₂) = (do return (← snapshots t r₁) ++ (← snapshots t r₂))) ∧
    ∀ o₁ o₂ : Octets, CompleteOctets o₁ → BeginsOctets o₂ →
      textOf (o₁ ++ o₂) = textOf o₁ ++ textOf o₂ ∧ Complete (textOf o₁) ∧ Begins (textOf o₂) := by
  refine ⟨fun r₁ r₂ h₁ h₂ => ⟨cakeBlocks_append h₁ h₂, fun r h hbegins hother => ?_,
    fun l₁ l₂ hl₁ hl₂ => snapshots_append h₁ h₂ hl₁ hl₂⟩, fun o₁ o₂ h₁ h₂ => textOf_append h₁ h₂⟩
  have hblocks := cakeBlocks_insert (t := t) h₁ h hbegins h₂ hother
  exact ⟨hblocks, by rw [snapshots, snapshots, hblocks]⟩

/-- A report of one CAKE queue. -/
def uplinkReport : Text := "qdisc cake 1: dev up root\n Sent 5 bytes 1 pkt\n"

/-- A report of a queue of another discipline. -/
def fairReport : Text := "qdisc fq 0: dev up root\n limit 5p\n"

/-- A report of a CAKE queue on another interface, in octets with a malformed one. -/
def downlinkOctets : Octets := Utf8.encode "qdisc cake 2: dev down root\n" ++ [0xff]

/-- Two reports with another discipline between them, the second one given in octets. -/
theorem reports_compose_uplink_downlink :
    textOf (Utf8.encode uplinkReport ++ downlinkOctets) = uplinkReport ++ textOf downlinkOctets ∧
      cakeBlocks 0 (uplinkReport ++ textOf downlinkOctets)
        = .ok [⟨{ interface := "up", handle := "1", rawHeader := "qdisc cake 1: dev up root",
                  totals := ({} : Totals).setAll [(.sentBytes, 5), (.sentPkts, 1)] }, .root⟩,
               ⟨{ interface := "down", handle := "2", rawHeader := "qdisc cake 2: dev down root" },
                .root⟩] ∧
      snapshots 0 (uplinkReport ++ fairReport ++ textOf downlinkOctets)
        = (do return (← snapshots 0 uplinkReport) ++ (← snapshots 0 (textOf downlinkOctets))) := by
  obtain ⟨htexts, hoctets⟩ := reports_compose 0
  obtain ⟨hseam, -, hbegins⟩ :=
    hoctets (Utf8.encode uplinkReport) downlinkOctets (by decide +kernel) (by decide +kernel)
  obtain ⟨hblocks, hinsert, hsnapshots⟩ :=
    htexts uplinkReport (textOf downlinkOctets) (by decide +kernel) hbegins
  have huplink : cakeBlocks 0 uplinkReport
      = .ok [⟨{ interface := "up", handle := "1", rawHeader := "qdisc cake 1: dev up root",
                totals := ({} : Totals).setAll [(.sentBytes, 5), (.sentPkts, 1)] }, .root⟩] := by
    decide +kernel
  have hdownlink : cakeBlocks 0 (textOf downlinkOctets)
      = .ok [⟨{ interface := "down", handle := "2", rawHeader := "qdisc cake 2: dev down root" },
              .root⟩] := by
    decide +kernel
  have hother := hinsert fairReport (by decide +kernel) (by decide +kernel) (by decide +kernel)
  refine ⟨hseam.trans (by decide +kernel), ?_, hother.2.trans ?_⟩
  · rw [hblocks, huplink, hdownlink]
    rfl
  · exact hsnapshots _ _ huplink hdownlink (by decide +kernel)

end Report

end CakeMonitor
