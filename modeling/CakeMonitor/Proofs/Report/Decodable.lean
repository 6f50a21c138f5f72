import CakeMonitor.Proofs.Number.Sign
import CakeMonitor.Proofs.Number.Spoiled
import CakeMonitor.Report.Structured

/-!
# Structured reports that can be decoded

A structured report fails in two ways. One that is no array of JSON is undecodable, and says so. Behind
that, an entry is turned into a snapshot key by key, and JSON has values that no count can be taken from:
NaN and the infinities, and texts whose digits spell no number.

* `Structured.Countable`: a value that counts as something, if only as nothing.
* `Structured.Decodable`: an entry with such values under all keys that are counted.
* `Structured.only_undecodable_iff`: a document fails as undecodable or not at all exactly when its CAKE
  entries are of this kind.
-/

namespace CakeMonitor

namespace Structured

/-! ## Values -/

/-- A value that a count can be taken from, or that holds none. -/
def Countable : Json → Prop
  | .real x => x.IsFinite
  | .text t => Counter.Legible t
  | _ => True

/-- So is the value of a key, or there is none. -/
def CountableAt (entry : Json) (key : String) : Prop := ∀ v, entry.field? key = some v → Countable v

theorem succeeds_count? {v : Json} : Succeeds (count? v) ↔ Countable v := by
  cases v with
  | real x => exact succeeds_map.trans Binary64.succeeds_truncate
  | text t => exact succeeds_map.trans Counter.succeeds_read
  | _ => exact iff_of_true (succeeds_ok _) trivial

theorem succeeds_countOf? {key : String} {entry : Json} :
    Succeeds (countOf? key entry) ↔ CountableAt entry key := by
  unfold countOf? CountableAt
  cases entry.field? key with
  | none => exact iff_of_true (succeeds_ok _) nofun
  | some v => exact succeeds_count?.trans (by simp)

/-- The overhead is no real, or a finite one. -/
def OverheadDecodable (options : Json) : Prop :=
  ∀ x, options.field? "overhead" = some (.real x) → x.IsFinite

theorem succeeds_overhead? {options : Json} :
    Succeeds (overhead? options) ↔ OverheadDecodable options := by
  unfold overhead? OverheadDecodable
  cases options.field? "overhead" with
  | none => exact iff_of_true (succeeds_ok _) nofun
  | some v =>
    cases v with
    | real x => exact succeeds_map.trans (Binary64.succeeds_truncate.trans (by simp))
    | _ => exact iff_of_true (succeeds_ok _) nofun

/-- Counters are read one after another, each under its own key. -/
theorem succeeds_counters {α β : Type} {entry : Json} {f : β → String × α → Except NumberError β}
    (h : ∀ t k, Succeeds (f t k) ↔ CountableAt entry k.1) {keys : List (String × α)} {start : β} :
    Succeeds (keys.foldlM f start) ↔ ∀ key ∈ keys.map (·.1), CountableAt entry key := by
  rw [succeeds_foldlM h, List.forall_mem_map]

/-! ## Entries -/

/-- The keys of the options that are counted. -/
def optionKeys : List String := ["bandwidth", "mpu", "rtt"]

/-- The keys of a tin that are counted. -/
def tinKeys : List String := "threshold_rate" :: tinCounters.map (·.1)

/-- The keys of an entry that are counted. -/
def entryKeys : List String :=
  totals.map (·.1) ++ ["memory_used", "memory_limit", "capacity_estimate", "min_network_size",
    "max_network_size", "avg_hdr_offset"]

/-- The options of an entry hold countable values, or none, under the keys that are counted. -/
def OptionsDecodable (options : Json) : Prop :=
  (∀ key ∈ optionKeys, CountableAt options key) ∧ OverheadDecodable options

/-- So does a tin; what is no object is no tin. -/
def TinDecodable (tin : Json) : Prop := isObject tin = true → ∀ key ∈ tinKeys, CountableAt tin key

/-- An entry with a countable value, or none, under every key that is counted. -/
structure Decodable (entry : Json) : Prop where
  options : ∀ fs, entry.field? "options" = some (.object fs) → OptionsDecodable (.object fs)
  counts : ∀ key ∈ entryKeys, CountableAt entry key
  tins : ∀ ts, entry.field? "tins" = some (.array ts) → ∀ tin ∈ ts, TinDecodable tin

theorem succeeds_optionChanges {options : Json} :
    Succeeds (optionChanges options) ↔ OptionsDecodable options := by
  unfold optionChanges OptionsDecodable
  rw [succeeds_bind_and fun _ _ => succeeds_bind_and fun _ _ => succeeds_bind_and fun _ _ =>
    succeeds_bind_pure _, succeeds_overhead?]
  simp only [succeeds_countOf?, optionKeys, List.forall_mem_cons]
  tauto

theorem succeeds_tin {entry : Json} :
    Succeeds (tin entry) ↔ ∀ key ∈ tinKeys, CountableAt entry key := by
  unfold tin
  rw [succeeds_bind_and fun _ _ => succeeds_bind_pure _, tinKeys, List.forall_mem_cons]
  refine and_congr succeeds_countOf? (succeeds_counters fun t k => ?_)
  exact (succeeds_bind_pure _).trans succeeds_countOf?

theorem succeeds_tins {entries : List Json} :
    Succeeds (tins entries) ↔ ∀ entry ∈ entries, TinDecodable entry := by
  unfold tins TinDecodable
  rw [succeeds_mapM]
  simp only [succeeds_tin, List.mem_filter, and_imp]

/-- **An entry can be decoded** exactly when all that is counted is countable. -/
theorem succeeds_snapshot {t : Timestamp} {entry : Json} :
    Succeeds (snapshot t entry) ↔ Decodable entry := by
  have htotals (t : Totals) (k : String × Total) := (succeeds_bind_pure fun n : Option Nat =>
    (n.map fun n => t.set k.2 n).getD t).trans (@succeeds_countOf? k.1 entry)
  unfold snapshot
  extract_lets rest
  have hrest (changes : List OptionChange) : Succeeds (rest changes) ↔
      (∀ key ∈ entryKeys, CountableAt entry key) ∧
        ∀ ts, entry.field? "tins" = some (.array ts) → ∀ tin ∈ ts, TinDecodable tin := by
    unfold rest
    refine (succeeds_bind_and fun _ _ => succeeds_bind_and fun _ _ => succeeds_bind_and fun _ _ =>
      succeeds_bind_and fun _ _ => succeeds_bind_and fun _ _ => succeeds_bind_and fun _ _ =>
      succeeds_bind_and (P := ∀ ts, entry.field? "tins" = some (.array ts) →
        ∀ tin ∈ ts, TinDecodable tin) fun _ _ => ?_).trans ?_
    · split
      · next ts hts => exact (succeeds_bind_pure _).trans (succeeds_tins.trans (by simp [hts]))
      · next hnone => exact iff_of_true ⟨_, rfl⟩ fun ts hts => absurd hts (hnone ts)
    · rw [succeeds_counters htotals]
      simp only [succeeds_countOf?, entryKeys, List.forall_mem_append, List.forall_mem_cons,
        List.not_mem_nil, IsEmpty.forall_iff, implies_true, and_true, and_assoc]
  split
  · next fs hfs =>
    rw [succeeds_bind_and fun changes _ => hrest changes, succeeds_optionChanges]
    constructor
    · rintro ⟨hoptions, hcounts, htins⟩
      refine ⟨fun fs' hfs' => ?_, hcounts, htins⟩
      rw [hfs] at hfs'
      cases hfs'
      exact hoptions
    · rintro ⟨hoptions, hcounts, htins⟩
      exact ⟨hoptions fs hfs, hcounts, htins⟩
  · next hnone =>
    refine (hrest []).trans ?_
    constructor
    · rintro ⟨hcounts, htins⟩
      exact ⟨fun fs hfs => absurd hfs (hnone fs), hcounts, htins⟩
    · rintro ⟨-, hcounts, htins⟩
      exact ⟨hcounts, htins⟩

/-! ## Documents -/

/-- The CAKE entries of a document can be decoded; a document that is no array has none. -/
def AllDecodable (document : Option Json) : Prop :=
  ∀ entries, document = some (.array entries) → ∀ entry ∈ entries, isCake entry = true →
    Decodable entry

/-- The reading of a document fails as undecodable, or not at all. -/
def FailsOnlyUndecodable (result : Except ReportError (List Snapshot)) : Prop :=
  ∀ e, result = .error e → e.isUndecodable = true

theorem succeeds_entries {t : Timestamp} {entries : List Json} :
    Succeeds ((entries.filter isCake).mapM (snapshot t)) ↔ AllDecodable (some (.array entries)) := by
  rw [succeeds_mapM]
  simp only [succeeds_snapshot, List.mem_filter, and_imp, AllDecodable, Option.some.injEq,
    Json.array.injEq, forall_eq']

/-- **A document fails only as undecodable** exactly when each of its CAKE entries can be decoded. -/
theorem only_undecodable_iff {t : Timestamp} {document : Option Json} :
    FailsOnlyUndecodable (snapshots t document) ↔ AllDecodable document := by
  match document with
  | some (.array entries) =>
    rw [← succeeds_entries (t := t), snapshots]
    cases (entries.filter isCake).mapM (snapshot t) with
    | error e => exact iff_of_false (fun h => Bool.false_ne_true (h _ rfl)) (not_succeeds_error e)
    | ok l => exact iff_of_true nofun (succeeds_ok l)
  | none | some .null | some (.bool _) | some (.int _) | some (.real _) | some (.text _)
  | some (.object _) => exact iff_of_true (fun e he => by cases he; rfl) nofun

/-- A document has snapshots when it is an array and each of its CAKE entries can be decoded. -/
theorem succeeds_snapshots {t : Timestamp} {document : Option Json} :
    Succeeds (snapshots t document) ↔
      (∃ entries, document = some (.array entries)) ∧ AllDecodable document := by
  match document with
  | some (.array entries) =>
    rw [← succeeds_entries (t := t), snapshots]
    cases (entries.filter isCake).mapM (snapshot t) with
    | error e => exact iff_of_false (not_succeeds_error _) fun h => not_succeeds_error e h.2
    | ok l => exact iff_of_true (succeeds_ok l) ⟨⟨entries, rfl⟩, succeeds_ok l⟩
  | none | some .null | some (.bool _) | some (.int _) | some (.real _) | some (.text _)
  | some (.object _) => exact iff_of_false (not_succeeds_error _) fun h => by cases h.1.choose_spec

end Structured

end CakeMonitor
