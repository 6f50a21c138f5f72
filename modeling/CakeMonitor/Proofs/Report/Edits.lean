import CakeMonitor.Proofs.Report.Fields
import Mathlib.Logic.Relation

/-!
# Edits that change no snapshot

Entries that are not of CAKE, the order of keys, keys that nobody reads, and values of a kind that is not
expected under their key make no difference to a structured report, wherever they stand.

* `Structured.Expected`: the kinds of values that are expected; `entryShape`, `optionShape` and `tinShape` say
  which of them under which key.
* `Structured.Edit`: what may happen to the members of an object of some shape.
* `Structured.EntryEdit`, `Structured.ReportEdit`: what may happen to an entry and to a report.
* `Structured.Meaning`: what a report of plain values says; `Structured.snapshots_meaning` says that of every
  such report.
-/

namespace CakeMonitor

/-! ## Members of objects -/

namespace Json

theorem lookup_cons (key k : Text) (v : Json) (fs : List (Text × Json)) :
    lookup key ((k, v) :: fs) = (lookup key fs).orElse fun _ => if k = key then some v else none := rfl

theorem lookup_append (key : Text) (fs gs : List (Text × Json)) :
    lookup key (fs ++ gs) = (lookup key gs).orElse fun _ => lookup key fs := by
  induction fs with
  | nil => cases h : lookup key gs <;> simp [lookup, h]
  | cons f fs ih =>
    rw [List.cons_append, lookup_cons, lookup_cons, ih]
    cases lookup key gs <;> rfl

/-- A member is found under its own key alone. -/
theorem lookup_insert_of_ne {key k : Text} (h : k ≠ key) (v : Json) (fs gs : List (Text × Json)) :
    lookup key (fs ++ (k, v) :: gs) = lookup key (fs ++ gs) := by
  rw [lookup_append, lookup_append, lookup_cons, if_neg h]
  cases lookup key gs <;> rfl

/-- A member is found unless there is a later one of its key. -/
theorem lookup_insert_self (key : Text) (v : Json) (fs gs : List (Text × Json)) :
    lookup key (fs ++ (key, v) :: gs) = (lookup key gs).orElse fun _ => some v := by
  rw [lookup_append, lookup_cons, if_pos rfl]
  cases lookup key gs <;> rfl

theorem lookup_eq_some {key : Text} {v : Json} : ∀ {fs : List (Text × Json)},
    (fs.map (·.1)).Nodup → (key, v) ∈ fs → lookup key fs = some v
  | (k, w) :: fs, hnodup, hmem => by
    obtain ⟨hfirst, hrest⟩ := List.nodup_cons.mp hnodup
    rw [lookup_cons]
    obtain hmem | hmem := List.mem_cons.mp hmem
    · obtain ⟨rfl, rfl⟩ := Prod.mk.inj hmem
      have hnone : lookup key fs = none := by
        cases h : lookup key fs with
        | none => rfl
        | some u => exact absurd (List.mem_map_of_mem (f := (·.1)) (mem_of_lookup h)) hfirst
      rw [hnone, if_pos rfl]
      rfl
    · rw [lookup_eq_some hrest hmem]
      rfl

/-- The order of distinct keys makes no difference. -/
theorem lookup_perm {fs gs : List (Text × Json)} (hdistinct : (fs.map (·.1)).Nodup) (hperm : fs.Perm gs)
    (key : Text) : lookup key fs = lookup key gs := by
  have hdistinct' : (gs.map (·.1)).Nodup := (hperm.map _).nodup_iff.mp hdistinct
  cases h : lookup key fs with
  | some v => exact (lookup_eq_some hdistinct' (hperm.mem_iff.mp (mem_of_lookup h))).symm
  | none =>
    cases h' : lookup key gs with
    | none => rfl
    | some v =>
      rw [lookup_eq_some hdistinct (hperm.mem_iff.mpr (mem_of_lookup h'))] at h
      cases h

end Json

namespace Structured

/-! ## Shapes -/

/-- What is expected under a key. -/
inductive Expected where
  /-- a number, or a text that spells a counter -/
  | count
  /-- a number, be it negative -/
  | number
  | text
  | truth
  | object
  | array
  deriving DecidableEq

/-- Whether a value is of the kind that is expected. -/
def Expected.accepts : Expected → Json → Bool
  | .count, .int _ | .count, .real _ | .count, .text _ => true
  | .number, .int _ | .number, .real _ => true
  | .text, .text _ | .truth, .bool _ | .object, .object _ | .array, .array _ => true
  | _, _ => false

/-- The keys of an object that are read, with what is expected there. -/
abbrev Shape := List (String × Expected)

/-- The keys of an entry. -/
def entryShape : Shape :=
  [("kind", .text), ("dev", .text), ("handle", .text), ("options", .object), ("tins", .array)]
    ++ entryKeys.map fun key => (key, .count)

/-- The keys of the options. -/
def optionShape : Shape :=
  [("diffserv", .text), ("atm", .text), ("nat", .truth), ("wash", .truth), ("overhead", .number)]
    ++ optionKeys.map fun key => (key, .count)

/-- The keys of a tin. -/
def tinShape : Shape := tinKeys.map fun key => (key, .count)

/-- The value under a key, if it is of the kind that is expected. -/
def view (expected : Expected) (key : String) (v : Json) : Option Json :=
  (v.field? key).filter expected.accepts

/-- Objects that hold the same values of the kinds that are expected. -/
def Agree (shape : Shape) (a b : Json) : Prop :=
  ∀ key expected, (key, expected) ∈ shape → view expected key a = view expected key b

/-- **An edit of the members of an object** that leaves alone what is read. -/
inductive Edit (shape : Shape) : List (Text × Json) → List (Text × Json) → Prop
  | permuted {fs gs : List (Text × Json)} (distinct : (fs.map (·.1)).Nodup) (perm : fs.Perm gs) :
    Edit shape fs gs
  /-- a key is added that is not read -/
  | unknown {fs gs : List (Text × Json)} {key : Text} {v : Json}
    (unread : ∀ k expected, (k, expected) ∈ shape → (k : Text) ≠ key) : Edit shape (fs ++ gs) (fs ++ (key, v) :: gs)
  /-- a key is added that is read, with a value of a kind that is not expected there -/
  | misplaced {fs gs : List (Text × Json)} {key : Text} {v : Json}
    (absent : Json.lookup key (fs ++ gs) = none)
    (unexpected : ∀ k expected, (k, expected) ∈ shape → (k : Text) = key → expected.accepts v = false) :
    Edit shape (fs ++ gs) (fs ++ (key, v) :: gs)

theorem agree_of_edit {shape : Shape} {fs gs : List (Text × Json)} (h : Edit shape fs gs) :
    Agree shape (.object fs) (.object gs) := by
  intro k expected hmem
  show (Json.lookup k fs).filter _ = (Json.lookup k gs).filter _
  cases h with
  | permuted distinct perm => rw [Json.lookup_perm distinct perm]
  | unknown unread =>
    rw [Json.lookup_insert_of_ne (unread k expected hmem).symm]
  | @misplaced fs gs key v absent unexpected =>
    by_cases hkey : (k : Text) = key
    · rw [hkey, absent, Json.lookup_insert_self]
      have hlast : Json.lookup key gs = none := by
        rw [Json.lookup_append] at absent
        cases h : Json.lookup key gs with
        | none => rfl
        | some w =>
          rw [h] at absent
          cases absent
      rw [hlast]
      show none = (some v).filter _
      simp [Option.filter, unexpected k expected hmem hkey]
    · rw [Json.lookup_insert_of_ne fun h => hkey h.symm]

/-! ## Objects that agree are read alike -/

section Reading

variable {a b : Json} {key : String}

/-- A value of a kind that is not expected is read as none. -/
theorem read_congr {γ : Type} {expected : Expected} (read : Option Json → γ)
    (hread : ∀ v, expected.accepts v = false → read (some v) = read none)
    (h : view expected key a = view expected key b) : read (a.field? key) = read (b.field? key) := by
  have hview (v : Option Json) : read v = read (v.filter expected.accepts) := by
    cases v with
    | none => rfl
    | some v =>
      cases hv : expected.accepts v with
      | true => simp [Option.filter, hv]
      | false => simp [Option.filter, hv, hread v hv]
  rw [hview (a.field? key), hview (b.field? key)]
  exact congrArg read h

/-- The count of a value, if there is one. -/
def countAt (v : Option Json) : Except NumberError (Option Nat) := v.elim (.ok none) count?

theorem countOf?_eq_countAt (key : String) (v : Json) : countOf? key v = countAt (v.field? key) := by
  unfold countOf? countAt
  cases v.field? key <;> rfl

theorem countOf?_congr (h : view .count key a = view .count key b) : countOf? key a = countOf? key b := by
  rw [countOf?_eq_countAt, countOf?_eq_countAt]
  refine read_congr countAt (fun v hv => ?_) h
  cases v with
  | int _ | real _ | text _ => cases hv
  | null | bool _ | array _ | object _ => rfl

theorem textOf?_congr (h : view .text key a = view .text key b) : textOf? key a = textOf? key b := by
  refine read_congr (fun v => v.bind Json.text?) (fun v hv => ?_) h
  cases v with
  | text _ => cases hv
  | null | bool _ | int _ | real _ | array _ | object _ => rfl

theorem boolOf?_congr (h : view .truth key a = view .truth key b) : boolOf? key a = boolOf? key b := by
  refine read_congr (fun v => v.bind Json.bool?) (fun v hv => ?_) h
  cases v with
  | bool _ => cases hv
  | null | int _ | real _ | text _ | array _ | object _ => rfl

/-- The overhead in a value. -/
def overheadAt : Option Json → Except NumberError (Option Int)
  | some (.int i) => .ok (some i)
  | some (.real x) => x.truncate.map some
  | _ => .ok none

theorem overhead?_congr (h : view .number "overhead" a = view .number "overhead" b) :
    overhead? a = overhead? b := by
  refine read_congr overheadAt (fun v hv => ?_) h
  cases v with
  | int _ | real _ => cases hv
  | null | bool _ | text _ | array _ | object _ => rfl

theorem optionsIn_congr (h : view .object key a = view .object key b) :
    optionsIn (a.field? key) = optionsIn (b.field? key) := by
  refine read_congr optionsIn (fun v hv => ?_) h
  cases v with
  | object _ => cases hv
  | null | bool _ | int _ | real _ | text _ | array _ => rfl

theorem tinsIn_congr (h : view .array key a = view .array key b) :
    tinsIn (a.field? key) = tinsIn (b.field? key) := by
  refine read_congr tinsIn (fun v hv => ?_) h
  cases v with
  | array _ => cases hv
  | null | bool _ | int _ | real _ | text _ | object _ => rfl

/-- Options that agree set the same. -/
theorem optionChanges_congr (h : Agree optionShape a b) : optionChanges a = optionChanges b := by
  unfold optionChanges
  rw [countOf?_congr (h "bandwidth" .count (by decide)), countOf?_congr (h "mpu" .count (by decide)),
    overhead?_congr (h "overhead" .number (by decide)), countOf?_congr (h "rtt" .count (by decide)),
    textOf?_congr (h "diffserv" .text (by decide)), boolOf?_congr (h "nat" .truth (by decide)),
    boolOf?_congr (h "wash" .truth (by decide)), textOf?_congr (h "atm" .text (by decide))]

/-- Counters under keys that agree are read alike. -/
theorem counters_congr {β κ : Type} {keys : List (String × κ)}
    (h : ∀ key ∈ keys.map (·.1), countOf? key a = countOf? key b) (set : β → κ → Int → β) (start : β) :
    keys.foldlM (fun (t : β) (key, c) => do
      return ((← countOf? key a).map fun n => set t c n).getD t) start
    = keys.foldlM (fun (t : β) (key, c) => do
      return ((← countOf? key b).map fun n => set t c n).getD t) start := by
  induction keys generalizing start with
  | nil => rfl
  | cons k keys ih =>
    obtain ⟨key, c⟩ := k
    have hkey : countOf? key a = countOf? key b := h key List.mem_cons_self
    simp only [List.foldlM_cons, hkey]
    exact congrArg (bind _) (funext fun t => ih (fun key hkey => h key (List.mem_cons_of_mem _ hkey)) t)

/-- Tins that agree are read alike. -/
theorem tin_congr (h : Agree tinShape a b) : tin a = tin b := by
  have hcount (key : String) (hkey : key ∈ tinKeys) : countOf? key a = countOf? key b :=
    countOf?_congr (h key .count (List.mem_map_of_mem hkey))
  unfold tin
  rw [hcount "threshold_rate" List.mem_cons_self]
  refine congrArg (bind _) (funext fun thresh => congrArg (· >>= _) ?_)
  exact counters_congr (fun key hkey => hcount key (List.mem_cons_of_mem _ hkey)) TinCounters.set {}

/-- Entries are read alike when their keys agree and their options and tins are read alike. -/
theorem snapshot_congr (t : Timestamp) (hdev : textOf? "dev" a = textOf? "dev" b)
    (hhandle : textOf? "handle" a = textOf? "handle" b)
    (hcount : ∀ key ∈ entryKeys, countOf? key a = countOf? key b)
    (hoptions : optionsIn (a.field? "options") = optionsIn (b.field? "options"))
    (htins : tinsIn (a.field? "tins") = tinsIn (b.field? "tins")) : snapshot t a = snapshot t b := by
  have htotals : totalsOf a = totalsOf b :=
    counters_congr (fun key hkey => hcount key (List.mem_append_left _ hkey)) Totals.set {}
  rw [snapshot_steps, snapshot_steps, hoptions, htotals, hcount "memory_used" (by decide),
    hcount "memory_limit" (by decide), hcount "capacity_estimate" (by decide),
    hcount "min_network_size" (by decide), hcount "max_network_size" (by decide),
    hcount "avg_hdr_offset" (by decide), htins, hdev, hhandle]

end Reading

/-! ## Edits of entries -/

/-- An object with that member between others. -/
def having (fs : List (Text × Json)) (key : Text) (v : Json) (gs : List (Text × Json)) : Json :=
  .object (fs ++ (key, v) :: gs)

/-- **An edit of an entry** on one of its levels. -/
inductive EntryEdit : Json → Json → Prop
  | members {fs gs : List (Text × Json)} (edit : Edit entryShape fs gs) :
    EntryEdit (.object fs) (.object gs)
  | options {fs gs os ps : List (Text × Json)} (edit : Edit optionShape os ps) :
    EntryEdit (having fs "options" (.object os) gs) (having fs "options" (.object ps) gs)
  | tin {fs gs ms ns : List (Text × Json)} {ts us : List Json} (edit : Edit tinShape ms ns) :
    EntryEdit (having fs "tins" (.array (ts ++ .object ms :: us)) gs)
      (having fs "tins" (.array (ts ++ .object ns :: us)) gs)
  /-- what is no object is put among the tins -/
  | stray {fs gs : List (Text × Json)} {ts us : List Json} {v : Json} (stray : isObject v = false) :
    EntryEdit (having fs "tins" (.array (ts ++ us)) gs) (having fs "tins" (.array (ts ++ v :: us)) gs)

section Replaced

variable {fs gs : List (Text × Json)} {v w : Json}

/-- Another value under one key makes no difference under the others. -/
theorem view_replaced {k : Text} {key : String} (expected : Expected) (h : k ≠ key) :
    view expected key (having fs k v gs) = view expected key (having fs k w gs) := by
  show (Json.lookup _ _).filter _ = (Json.lookup _ _).filter _
  rw [Json.lookup_insert_of_ne h, Json.lookup_insert_of_ne h]

/-- Other options that set the same. -/
theorem snapshot_options (t : Timestamp) {os ps : List (Text × Json)}
    (h : optionChanges (.object os) = optionChanges (.object ps)) :
    snapshot t (having fs "options" (.object os) gs) = snapshot t (having fs "options" (.object ps) gs) := by
  have hkeys : ∀ key ∈ entryKeys, Text.ofString "options" ≠ Text.ofString key := by decide
  refine snapshot_congr t (textOf?_congr (view_replaced .text (by decide)))
    (textOf?_congr (view_replaced .text (by decide)))
    (fun key hkey => countOf?_congr (view_replaced .count (hkeys key hkey))) ?_
    (tinsIn_congr (view_replaced .array (by decide)))
  unfold having Json.field?
  simp only [Json.lookup_insert_self]
  cases Json.lookup "options" gs with
  | none => exact h
  | some _ => rfl

/-- Other tins that are read alike. -/
theorem snapshot_tins (t : Timestamp) {ts us : List Json} (h : tins ts = tins us) :
    snapshot t (having fs "tins" (.array ts) gs) = snapshot t (having fs "tins" (.array us) gs) := by
  have hkeys : ∀ key ∈ entryKeys, Text.ofString "tins" ≠ Text.ofString key := by decide
  refine snapshot_congr t (textOf?_congr (view_replaced .text (by decide)))
    (textOf?_congr (view_replaced .text (by decide)))
    (fun key hkey => countOf?_congr (view_replaced .count (hkeys key hkey)))
    (optionsIn_congr (view_replaced .object (by decide))) ?_
  unfold having Json.field?
  simp only [Json.lookup_insert_self]
  cases Json.lookup "tins" gs with
  | none => exact h
  | some _ => rfl

end Replaced

/-- **An edited entry is read as before.** -/
theorem snapshot_of_edit {a b : Json} (h : EntryEdit a b) (t : Timestamp) : snapshot t a = snapshot t b := by
  cases h with
  | members edit =>
    have hagree := agree_of_edit edit
    refine snapshot_congr t (textOf?_congr (hagree "dev" .text (by decide)))
      (textOf?_congr (hagree "handle" .text (by decide))) (fun key hkey => countOf?_congr (hagree key .count ?_))
      (optionsIn_congr (hagree "options" .object (by decide)))
      (tinsIn_congr (hagree "tins" .array (by decide)))
    exact List.mem_append_right _ (List.mem_map.mpr ⟨key, hkey, rfl⟩)
  | options edit => exact snapshot_options t (optionChanges_congr (agree_of_edit edit))
  | tin edit =>
    refine snapshot_tins t (mapM_congr_map ?_)
    simp only [List.filter_append, List.filter_cons, isObject, if_true, List.map_append, List.map_cons,
      tin_congr (agree_of_edit edit)]
  | stray stray =>
    refine snapshot_tins t (mapM_congr_map ?_)
    simp only [List.filter_append, List.filter_cons, stray, Bool.false_eq_true, if_false]

/-- An edited entry is one of CAKE if it was. -/
theorem isCake_of_edit {a b : Json} (h : EntryEdit a b) : isCake a = isCake b := by
  have hkind : textOf? "kind" a = textOf? "kind" b := by
    cases h with
    | members edit => exact textOf?_congr (agree_of_edit edit "kind" .text (by decide))
    | options _ | tin _ | stray _ => exact textOf?_congr (view_replaced .text (by decide))
  unfold isCake
  rw [hkind]

/-! ## Edits of reports -/

theorem isCake_iff {entry : Json} : isCake entry = true ↔
    ∃ fs, entry = .object fs ∧ Json.lookup "kind" fs = some (.text "cake") := by
  unfold isCake textOf?
  rw [decide_eq_true_eq]
  cases entry with
  | object fs =>
    constructor
    · intro h
      obtain ⟨v, hv, htext⟩ := Option.bind_eq_some_iff.mp h
      cases v with
      | text t => exact ⟨fs, rfl, hv.trans (congrArg (fun t => some (Json.text t)) (Option.some.inj htext))⟩
      | null | bool _ | int _ | real _ | array _ | object _ => cases htext
    · rintro ⟨gs, hgs, hkind⟩
      cases hgs
      exact Option.bind_eq_some_iff.mpr ⟨_, hkind, rfl⟩
  | null | bool _ | int _ | real _ | text _ | array _ => exact iff_of_false nofun nofun

/-- **An edit of a report**: of one entry, or by one that is not of CAKE. -/
inductive ReportEdit : List Json → List Json → Prop
  | entry {ls rs : List Json} {a b : Json} (edit : EntryEdit a b) : ReportEdit (ls ++ a :: rs) (ls ++ b :: rs)
  | other {ls rs : List Json} {a : Json}
    (other : ¬ ∃ fs, a = .object fs ∧ Json.lookup "kind" fs = some (.text "cake")) :
    ReportEdit (ls ++ rs) (ls ++ a :: rs)

/-- An edited report is read as before. -/
theorem snapshots_of_edit {es fs : List Json} (h : ReportEdit es fs) (t : Timestamp) :
    snapshots t (some (.array es)) = snapshots t (some (.array fs)) := by
  refine congrArg (Except.mapError ReportError.number) (mapM_congr_map ?_)
  cases h with
  | entry edit =>
    simp only [List.filter_append, List.filter_cons, isCake_of_edit edit, List.map_append]
    split
    · simp only [List.map_cons, snapshot_of_edit edit t]
    · rfl
  | other other =>
    have hcake := Bool.eq_false_iff.mpr (mt isCake_iff.mp other)
    simp only [List.filter_append, List.filter_cons, hcake, Bool.false_eq_true, if_false]

/-- So is one that is edited any number of times, forth and back. -/
theorem snapshots_of_edits {es fs : List Json} (h : Relation.EqvGen ReportEdit es fs) (t : Timestamp) :
    snapshots t (some (.array es)) = snapshots t (some (.array fs)) := by
  induction h with
  | rel es fs edit => exact snapshots_of_edit edit t
  | refl es => rfl
  | symm es fs _ ih => exact ih.symm
  | trans es fs gs _ _ ih ih' => exact ih.trans ih'

/-! ## The meaning of a report -/

/-- **The meaning of a report** of plain values. -/
structure Meaning (t : Timestamp) (entries : List Json) : Prop where
  /-- each CAKE entry has a snapshot, in their order -/
  read : snapshots t (some (.array entries))
    = .ok ((entries.filter isCake).map fun entry => described t fun path => entry.at? path)
  /-- be the report text or octets -/
  ofText : ∀ report, Json.ofText? (some digitLimit) report = some (.array entries) →
    ofText t report = snapshots t (some (.array entries))
  ofOctets : ∀ report, Json.ofOctets? (some digitLimit) report = some (.array entries) →
    ofOctets t report = snapshots t (some (.array entries))
  /-- the snapshots of more entries come behind -/
  appended : ∀ more, (Json.array more).Plain → ∃ front back,
    snapshots t (some (.array entries)) = .ok front ∧ snapshots t (some (.array more)) = .ok back ∧
      snapshots t (some (.array (entries ++ more))) = .ok (front ++ back)
  /-- edits change nothing, nor does undoing them -/
  edited : ∀ others, Relation.EqvGen ReportEdit entries others →
    snapshots t (some (.array others)) = snapshots t (some (.array entries))
  /-- each field is that of any entry with the same value under its key -/
  fields : ∀ {β : Type} {get : Snapshot → β} {path : List String}, Field get path → ∀ a ∈ entries,
    ∀ b : Json, b.Plain → a.at? path = b.at? path →
      ∃ s s', snapshot t a = .ok s ∧ snapshot t b = .ok s' ∧ get s = get s'
  tinFields : ∀ {β : Type} {get : Tin → β} {key : String}, TinField get key → ∀ a ∈ entries,
    ∀ v ∈ objectsIn (a.field? "tins"), ∀ w : Json, w.Plain → v.field? key = w.field? key →
      ∃ s s', tin v = .ok s ∧ tin w = .ok s' ∧ get s = get s'
  integers : ∀ i, counted (some (.int i)) = max i 0
  fractions : ∀ negative units, counted (some (.real (.finite negative units)))
    = if negative then 0 else ((units / Binary64.unitsOfOne : Nat) : Int)

theorem snapshots_of_plain {t : Timestamp} {entries : List Json} (h : (Json.array entries).Plain) :
    snapshots t (some (.array entries))
      = .ok ((entries.filter isCake).map fun entry => described t fun path => entry.at? path) := by
  cases h with
  | array items =>
    refine congrArg (Except.mapError ReportError.number) (mapM_eq_ok fun entry hentry => ?_)
    exact snapshot_eq (decodable_of_plain (items entry (List.mem_of_mem_filter hentry)))

theorem plain_append {entries more : List Json} (h : (Json.array entries).Plain)
    (h' : (Json.array more).Plain) : (Json.array (entries ++ more)).Plain := by
  cases h with
  | array items =>
    cases h' with
    | array items' => exact .array fun v hv => (List.mem_append.mp hv).elim (items v) (items' v)

theorem plain_objectsIn {v : Option Json} (h : ∀ w, v = some w → w.Plain) :
    ∀ w ∈ objectsIn v, w.Plain := by
  intro w hw
  match v with
  | some (.array vs) =>
    cases h _ rfl with
    | array items => exact items w (List.mem_of_mem_filter hw)
  | none | some .null | some (.bool _) | some (.int _) | some (.real _) | some (.text _)
  | some (.object _) => cases hw

/-- **Every report of plain values has this meaning.** -/
theorem snapshots_meaning (t : Timestamp) {entries : List Json} (h : (Json.array entries).Plain) :
    Meaning t entries := by
  have hentries : ∀ a ∈ entries, a.Plain := by
    cases h with
    | array items => exact items
  have hread {entries : List Json} := @snapshots_of_plain t entries
  have htin {v : Json} (hv : v.Plain) := tin_eq fun key _ => countableAt_of_plain hv key
  refine ⟨hread h, fun report hreport => ?_, fun report hreport => ?_, fun more hmore => ?_,
    fun others hothers => ?_, fun hfield a ha b hb heq => ?_, fun hfield a ha v hv w hw heq => ?_,
    counted_int, counted_real⟩
  · rw [Structured.ofText, hreport]
  · rw [Structured.ofOctets, hreport]
  · refine ⟨_, _, hread h, hread hmore, ?_⟩
    rw [hread (plain_append h hmore), List.filter_append, List.map_append]
  · exact (snapshots_of_edits hothers t).symm
  · exact ⟨_, _, snapshot_eq (decodable_of_plain (hentries a ha)), snapshot_eq (decodable_of_plain hb),
      described_field hfield t heq⟩
  · have hplain := plain_objectsIn (fun w hw => (hentries a ha).field hw) v hv
    exact ⟨_, _, htin hplain, htin hw, describedTin_field hfield heq⟩

/-- Two entries, one of them of CAKE with a negative count and a Boolean where a count is expected. -/
def mixedEntries : List Json :=
  [.object [(("kind" : Text), .text "fq_codel")],
   .object [(("kind" : Text), .text "cake"), (("bytes" : Text), .int (-5)),
     (("memory_limit" : Text), .int 33554433), (("packets" : Text), .bool true)]]

/-- The Boolean says nothing, the negative count is zero, and of the memory the whole megabytes count. -/
theorem snapshots_meaning_mixedEntries : (Json.array mixedEntries).Plain ∧ Meaning 0 mixedEntries ∧
    snapshots 0 (some (.array mixedEntries)) = .ok [{ memoryTotal := "32Mb" }] := by
  have hother : Json.Plain (.object [(("kind" : Text), .text "fq_codel")]) :=
    .object (List.forall_mem_singleton.mpr (.text (by decide)))
  have hcake : Json.Plain (.object [(("kind" : Text), .text "cake"), (("bytes" : Text), .int (-5)),
      (("memory_limit" : Text), .int 33554433), (("packets" : Text), .bool true)]) := by
    refine .object ?_
    simp only [List.forall_mem_cons]
    exact ⟨.text (by decide), .int (by decide +kernel), .int (by decide +kernel), .bool true, nofun⟩
  have hplain : (Json.array mixedEntries).Plain :=
    .array (List.forall_mem_cons.mpr ⟨hother, List.forall_mem_singleton.mpr hcake⟩)
  exact ⟨hplain, snapshots_meaning 0 hplain, by decide +kernel⟩

end Structured

end CakeMonitor
