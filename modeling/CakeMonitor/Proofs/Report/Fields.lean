import CakeMonitor.Proofs.Report.Decodable
import CakeMonitor.Proofs.Report.Setters

/-!
# What the keys of an entry say

A snapshot of a structured report is read off its entry key by key. Every field has a key of its own, and
what stands there is read by what is expected there: a count, a signed number, a text, a truth value.

* `Json.Plain`: values with finite numbers and short texts of ASCII; `Structured.decodable_of_plain` says that
  entries made of them can be decoded.
* `Json.at?`: the value at a path of keys.
* `Structured.countIn`, `wholeIn`, `textIn`, `truthIn`, `objectsIn`: what a value says by what is expected.
* `Structured.described`: the snapshot of an entry, field by field; `Structured.snapshot_eq` says that it is the
  one that is read.
* `Structured.Field`: the fields with the paths of their keys.
-/

namespace CakeMonitor

/-! ## Plain values -/

/-- A value with finite numbers and texts of ASCII, none of them too long. -/
inductive Json.Plain : Json → Prop
  | null : Plain .null
  | bool (b : Bool) : Plain (.bool b)
  | int {i : Int} (short : i.natAbs < tenPow digitLimit) : Plain (.int i)
  | real {x : Binary64} (finite : x.IsFinite) : Plain (.real x)
  | text {t : Text} (plain : t.Plain) : Plain (.text t)
  | array {vs : List Json} (items : ∀ v ∈ vs, Plain v) : Plain (.array vs)
  | object {fs : List (Text × Json)} (values : ∀ f ∈ fs, Plain f.2) : Plain (.object fs)

namespace Json

theorem mem_of_lookup {key : Text} {v : Json} :
    ∀ {fs : List (Text × Json)}, lookup key fs = some v → (key, v) ∈ fs
  | (k, w) :: fs, h => by
    unfold lookup at h
    cases hrest : lookup key fs with
    | some u =>
      rw [hrest] at h
      obtain rfl : u = v := Option.some.inj h
      exact List.mem_cons_of_mem _ (mem_of_lookup hrest)
    | none =>
      rw [hrest] at h
      by_cases hk : k = key
      · subst hk
        obtain rfl : w = v := by simpa using h
        exact List.mem_cons_self
      · simp [hk] at h

/-- The value at a path of keys. -/
def at? : List String → Json → Option Json
  | [], v => some v
  | key :: path, v => (v.field? key).bind (at? path)

theorem at?_singleton (key : String) (v : Json) : v.at? [key] = v.field? key :=
  Option.bind_fun_some _

theorem Plain.field {v w : Json} {key : Text} (hv : v.Plain) (h : v.field? key = some w) : w.Plain := by
  cases v with
  | object fs =>
    cases hv with
    | object values => exact values _ (mem_of_lookup h)
  | null | bool _ | int _ | real _ | text _ | array _ => cases h

end Json

/-- The integer part is cut off towards zero. -/
theorem Binary64.signed_tdiv (negative : Bool) (units : Nat) :
    (signed negative units).tdiv unitsOfOne = signed negative (units / unitsOfOne) := by
  cases negative with
  | false => exact (Int.ofNat_tdiv units unitsOfOne).symm
  | true =>
    show (-(units : Int)).tdiv unitsOfOne = -((units / unitsOfOne : Nat) : Int)
    rw [Int.neg_tdiv, Int.ofNat_tdiv]

theorem Binary64.truncate_finite (negative : Bool) (units : Nat) :
    (finite negative units).truncate = .ok ((signed negative units).tdiv unitsOfOne) :=
  congrArg Except.ok (signed_tdiv negative units).symm

namespace Structured

theorem countableAt_of_plain {entry : Json} (h : entry.Plain) (key : String) : CountableAt entry key := by
  intro v hv
  have hplain := h.field hv
  cases hplain with
  | real finite => exact finite
  | text plain => exact Counter.legible_of_plain plain
  | null | bool _ | int _ | array _ | object _ => trivial

/-- **Plain entries can be decoded.** -/
theorem decodable_of_plain {entry : Json} (h : entry.Plain) : Decodable entry := by
  refine ⟨fun fs hfs => ?_, fun key _ => countableAt_of_plain h key, fun ts hts v hv _ key _ => ?_⟩
  · have hoptions := h.field hfs
    refine ⟨fun key _ => countableAt_of_plain hoptions key, fun x hx => ?_⟩
    cases hoptions.field hx with
    | real finite => exact finite
  · cases h.field hts with
    | array items => exact countableAt_of_plain (items v hv) key

/-! ## What a value says -/

/-- The whole part of a number. -/
def wholeIn : Option Json → Option Int
  | some (.int i) => some i
  | some (.real (.finite negative units)) =>
    some ((Binary64.signed negative units).tdiv Binary64.unitsOfOne)
  | _ => none

/-- A count: a number without its fraction, zero for a negative one, or a counter that a text spells. -/
def countIn : Option Json → Option Nat
  | some (.text t) => (Counter.read t).toOption
  | v => (wholeIn v).map Int.toNat

/-- A text, empty when there is none. -/
def textIn : Option Json → Text
  | some (.text t) => t
  | _ => []

/-- A truth value, false when there is none. -/
def truthIn : Option Json → Bool
  | some (.bool b) => b
  | _ => false

/-- The objects in an array, in their order. -/
def objectsIn : Option Json → List Json
  | some (.array vs) => vs.filter isObject
  | _ => []

theorem countOf?_eq {key : String} {entry : Json} (h : CountableAt entry key) :
    countOf? key entry = .ok (countIn (entry.field? key)) := by
  unfold countOf?
  cases hv : entry.field? key with
  | none => rfl
  | some v =>
    have hcountable := h v hv
    cases v with
    | real x =>
      cases x with
      | finite negative units =>
        exact congrArg (Except.map fun i => some i.toNat) (Binary64.truncate_finite negative units)
      | nan | infinite _ => exact hcountable.elim
    | text t =>
      obtain ⟨n, hn⟩ := Counter.succeeds_read.mpr hcountable
      show (Counter.read t).map some = .ok (Counter.read t).toOption
      rw [hn]
      rfl
    | null | bool _ | int _ | array _ | object _ => rfl

theorem overhead?_eq {options : Json} (h : OverheadDecodable options) :
    overhead? options = .ok (wholeIn (options.field? "overhead")) := by
  unfold overhead?
  cases hv : options.field? "overhead" with
  | none => rfl
  | some v =>
    cases v with
    | real x =>
      have hfinite := h x hv
      cases x with
      | finite negative units =>
        exact congrArg (Except.map some) (Binary64.truncate_finite negative units)
      | nan | infinite _ => exact hfinite.elim
    | null | bool _ | int _ | text _ | array _ | object _ => rfl

theorem textOf?_getD (key : String) (entry : Json) :
    (textOf? key entry).getD [] = textIn (entry.field? key) := by
  unfold textOf?
  cases entry.field? key with
  | none => rfl
  | some v => cases v <;> rfl

theorem boolOf?_getD (key : String) (entry : Json) :
    (boolOf? key entry).getD false = truthIn (entry.field? key) := by
  unfold boolOf?
  cases entry.field? key with
  | none => rfl
  | some v => cases v <;> rfl

/-! ## The options of an entry -/

/-- The options, given the value of each key. -/
def describedOptions (value : String → Option Json) : Options where
  bandwidth := rendered (countIn (value "bandwidth")) fun n => Text.ofNat n ++ ("bit" : Text)
  diffservMode := textIn (value "diffserv")
  rtt := rendered (countIn (value "rtt")) fun n => Text.ofNat (n / 1000) ++ ("ms" : Text)
  overhead := ((wholeIn (value "overhead")).map Text.ofInt).getD []
  atmMode := textIn (value "atm")
  mpu := rendered ((countIn (value "mpu")).filter (· ≠ 0)) Text.ofNat
  nat := truthIn (value "nat")
  wash := truthIn (value "wash")

/-- Options that may be set, one after another. -/
theorem filterMap_id_cons {α : Type} (a : Option α) (as : List (Option α)) :
    (a :: as).filterMap id = a.toList ++ as.filterMap id := by
  cases a <;> rfl

theorem toList_map_text {α : Type} (a : Option α) (k : TextOption) (f : α → Text) :
    (a.map fun n => OptionChange.text k (f n)).toList = Options.change k (a.map f) := by
  cases a <;> rfl

open Options in
/-- The options that an object sets are those that its keys describe. -/
theorem optionChanges_eq {options : Json} (h : OptionsDecodable options) :
    ∃ changes, optionChanges options = .ok changes ∧
      ({} : Options).setAll changes = describedOptions fun key => options.field? key := by
  have hcount (key : String) (hkey : key ∈ optionKeys) := countOf?_eq (h.1 key hkey)
  have hatm : ((textOf? "atm" options).filter (· ≠ [])).getD [] = textIn (options.field? "atm") := by
    rw [← textOf?_getD]
    cases textOf? "atm" options with
    | none => rfl
    | some t => cases t <;> rfl
  unfold optionChanges
  rw [hcount "bandwidth" (by decide), hcount "mpu" (by decide), hcount "rtt" (by decide),
    overhead?_eq h.2]
  refine ⟨_, rfl, ?_⟩
  have hsets (t : Option Text) (k : TextOption) : (t.map (.text k)).toList = change k t := rfl
  have hturns (b : Option Bool) (k : Switch) : (b.map (.switch k)).toList = turn k b := rfl
  simp only [filterMap_id_cons, List.filterMap_nil, List.append_nil, toList_map_text, hsets, hturns,
    setAll_append]
  refine eq_of_text_isOn (fun k => ?_) fun k => ?_
  · simp only [text_setAll_change, text_setAll_turn]
    cases k with
    | diffservMode => exact textOf?_getD "diffserv" options
    | atmMode => exact hatm
    | _ => rfl
  · simp only [isOn_setAll_change, isOn_setAll_turn]
    cases k with
    | nat => exact boolOf?_getD "nat" options
    | wash => exact boolOf?_getD "wash" options

/-! ## Entries -/

/-- A counter, zero when there is none. -/
def counted (v : Option Json) : Int := (countIn v).getD 0

/-- The tin that an object describes, given the value of each key. -/
def describedTin (value : String → Option Json) : Tin where
  labels := { thresh := rendered (countIn (value "threshold_rate")) Text.ofNat }
  counters := {
    bytes := counted (value "sent_bytes")
    drops := counted (value "drops")
    maxLen := counted (value "max_pkt_len")
    quantum := counted (value "flow_quantum") }

/-- **The snapshot of an entry**, given the value at each path. -/
def described (t : Timestamp) (value : List String → Option Json) : Snapshot where
  interface := textIn (value ["dev"])
  handle := (textIn (value ["handle"])).trimEndBy (· = ':')
  updatedAt := t
  options := describedOptions fun key => value ["options", key]
  totals := {
    sentBytes := counted (value ["bytes"])
    sentPkts := counted (value ["packets"])
    dropped := counted (value ["drops"])
    overlimits := counted (value ["overlimits"])
    requeues := counted (value ["requeues"]) }
  memoryUsed := rendered (countIn (value ["memory_used"])) fun n => Text.ofNat n ++ ("b" : Text)
  memoryTotal := rendered (countIn (value ["memory_limit"])) fun n =>
    Text.ofNat (n / twoPow 20) ++ ("Mb" : Text)
  capacityEstimate := rendered (countIn (value ["capacity_estimate"])) fun n =>
    Text.ofNat (n / tenPow 6) ++ ("Mbit" : Text)
  sizes := {
    minNet := rendered (countIn (value ["min_network_size"])) Text.ofNat
    maxNet := rendered (countIn (value ["max_network_size"])) Text.ofNat
    headerOffset := rendered (countIn (value ["avg_hdr_offset"])) Text.ofNat }
  tins := (objectsIn (value ["tins"])).map fun tin => describedTin fun key => tin.field? key

theorem map_ofNat_getD (x : Option Nat) : (x.map Int.ofNat).getD 0 = ((x.getD 0 : Nat) : Int) := by
  cases x <;> rfl

/-- Counters of a tin that are read from their keys. -/
theorem foldl_tinCounters (value : String → Option Json) :
    tinCounters.foldl (fun (t : TinCounters) k => ((countIn (value k.1)).map fun n : Nat => t.set k.2 n).getD t) {}
      = { bytes := counted (value "sent_bytes"), drops := counted (value "drops")
          maxLen := counted (value "max_pkt_len"), quantum := counted (value "flow_quantum") } := by
  refine TinCounters.eq_of_get fun c => ?_
  simp only [tinCounters, List.foldl_cons, List.foldl_nil, TinCounters.get_set?]
  cases c with
  | bytes | drops | maxLen | quantum => exact map_ofNat_getD _
  | _ => rfl

theorem foldl_totals (value : String → Option Json) :
    totals.foldl (fun (t : Totals) k => ((countIn (value k.1)).map fun n : Nat => t.set k.2 n).getD t) {}
      = { sentBytes := counted (value "bytes"), sentPkts := counted (value "packets")
          dropped := counted (value "drops"), overlimits := counted (value "overlimits")
          requeues := counted (value "requeues") } := by
  refine Totals.eq_of_get fun c => ?_
  simp only [totals, List.foldl_cons, List.foldl_nil, Totals.get_set?]
  cases c with
  | backlogPkts => rfl
  | _ => exact map_ofNat_getD _

/-- Counters are read one after another, each under its own key. -/
theorem counters_eq {β κ : Type} {entry : Json} {keys : List (String × κ)}
    (h : ∀ key ∈ keys.map (·.1), CountableAt entry key) (set : β → κ → Int → β) (start : β) :
    keys.foldlM (fun (t : β) (key, c) => do
      return ((← countOf? key entry).map fun n => set t c n).getD t) start
    = .ok (keys.foldl (fun (t : β) k =>
      ((countIn (entry.field? k.1)).map fun n : Nat => set t k.2 n).getD t) start) := by
  refine foldlM_eq_ok fun t k hk => ?_
  show countOf? k.1 entry >>= _ = _
  rw [countOf?_eq (h k.1 (List.mem_map_of_mem hk))]
  cases countIn (entry.field? k.1) <;> rfl

theorem tin_eq {entry : Json} (h : ∀ key ∈ tinKeys, CountableAt entry key) :
    tin entry = .ok (describedTin fun key => entry.field? key) := by
  have hcounters := counters_eq (fun key hkey => h key (List.mem_cons_of_mem _ hkey)) TinCounters.set {}
  rw [foldl_tinCounters fun key => entry.field? key] at hcounters
  unfold tin
  rw [countOf?_eq (h "threshold_rate" List.mem_cons_self), hcounters]
  rfl

theorem tins_eq {entries : List Json} (h : ∀ entry ∈ entries, TinDecodable entry) :
    tins entries = .ok ((entries.filter isObject).map fun tin => describedTin fun key => tin.field? key) := by
  refine mapM_eq_ok fun entry hentry => tin_eq ?_
  obtain ⟨hmem, hobject⟩ := List.mem_filter.mp hentry
  exact h entry hmem hobject

/-! ### The steps of a reading -/

/-- What the options set, if they are an object. -/
def optionsIn : Option Json → Except NumberError (List OptionChange)
  | some (.object fs) => optionChanges (.object fs)
  | _ => pure []

/-- The tins, if they are in an array. -/
def tinsIn : Option Json → Except NumberError (List Tin)
  | some (.array ts) => tins ts
  | _ => pure []

/-- The counters of an entry. -/
def totalsOf (entry : Json) : Except NumberError Totals :=
  totals.foldlM (fun (t : Totals) (key, c) => do
    return ((← countOf? key entry).map fun n => t.set c n).getD t) {}

/-- An entry is read in these steps. -/
theorem snapshot_steps (t : Timestamp) (entry : Json) : snapshot t entry = (do
    let changes ← optionsIn (entry.field? "options")
    let totals ← totalsOf entry
    let memoryUsed ← countOf? "memory_used" entry
    let memoryLimit ← countOf? "memory_limit" entry
    let capacity ← countOf? "capacity_estimate" entry
    let minNet ← countOf? "min_network_size" entry
    let maxNet ← countOf? "max_network_size" entry
    let headerOffset ← countOf? "avg_hdr_offset" entry
    let tins ← tinsIn (entry.field? "tins")
    return {
      interface := (textOf? "dev" entry).getD []
      handle := ((textOf? "handle" entry).map (Text.trimEndBy (· = ':'))).getD []
      updatedAt := t, totals, tins
      options := ({} : Options).setAll changes
      memoryUsed := rendered memoryUsed fun n => Text.ofNat n ++ ("b" : Text)
      memoryTotal := rendered memoryLimit fun n => Text.ofNat (n / (1024 * 1024)) ++ ("Mb" : Text)
      capacityEstimate := rendered capacity fun n => Text.ofNat (n / 1000000) ++ ("Mbit" : Text)
      sizes := { minNet := rendered minNet Text.ofNat, maxNet := rendered maxNet Text.ofNat
                 headerOffset := rendered headerOffset Text.ofNat } }) := by
  have hoptions (rest : List OptionChange → Except NumberError Snapshot) :
      (match entry.field? "options" with
        | some (.object fs) => optionChanges (.object fs) >>= rest
        | _ => pure [] >>= rest) = optionsIn (entry.field? "options") >>= rest := by
    unfold optionsIn
    split <;> rfl
  have htins (rest : List Tin → Except NumberError Snapshot) :
      (match entry.field? "tins" with
        | some (.array ts) => tins ts >>= rest
        | _ => pure [] >>= rest) = tinsIn (entry.field? "tins") >>= rest := by
    unfold tinsIn
    split <;> rfl
  unfold snapshot
  refine (hoptions _).trans (congrArg (bind _) (funext fun changes => ?_))
  refine congrArg (bind _) (funext fun totals => congrArg (bind _) (funext fun memoryUsed =>
    congrArg (bind _) (funext fun memoryLimit => congrArg (bind _) (funext fun capacity =>
    congrArg (bind _) (funext fun minNet => congrArg (bind _) (funext fun maxNet =>
    congrArg (bind _) (funext fun headerOffset => ?_)))))))
  exact htins _

/-! ### The result of each step -/

theorem optionsIn_eq {entry : Json} (h : Decodable entry) :
    ∃ changes, optionsIn (entry.field? "options") = .ok changes ∧
      ({} : Options).setAll changes = describedOptions fun key => entry.at? ["options", key] := by
  unfold optionsIn Json.at?
  cases hv : entry.field? "options" with
  | none => exact ⟨[], rfl, rfl⟩
  | some v =>
    cases v with
    | object fs =>
      obtain ⟨changes, hchanges, hset⟩ := optionChanges_eq (h.options fs hv)
      refine ⟨changes, hchanges, hset.trans ?_⟩
      simp only [Option.bind_some, Json.at?_singleton]
    | null | bool _ | int _ | real _ | text _ | array _ => exact ⟨[], rfl, rfl⟩

theorem totalsOf_eq {entry : Json} (h : Decodable entry) : totalsOf entry = .ok
    { sentBytes := counted (entry.field? "bytes"), sentPkts := counted (entry.field? "packets")
      dropped := counted (entry.field? "drops"), overlimits := counted (entry.field? "overlimits")
      requeues := counted (entry.field? "requeues") } := by
  have hcounters := counters_eq (fun key hkey => h.counts key (List.mem_append_left _ hkey)) Totals.set {}
  rwa [foldl_totals fun key => entry.field? key] at hcounters

theorem tinsIn_eq {entry : Json} (h : Decodable entry) : tinsIn (entry.field? "tins") = .ok
    ((objectsIn (entry.field? "tins")).map fun tin => describedTin fun key => tin.field? key) := by
  unfold tinsIn objectsIn
  cases hv : entry.field? "tins" with
  | none => rfl
  | some v =>
    cases v with
    | array vs => exact tins_eq (h.tins vs hv)
    | null | bool _ | int _ | real _ | text _ | object _ => rfl

/-- **A snapshot is what its entry describes.** -/
theorem snapshot_eq {t : Timestamp} {entry : Json} (h : Decodable entry) :
    snapshot t entry = .ok (described t fun path => entry.at? path) := by
  have hcount (key : String) (hkey : key ∈ entryKeys) := countOf?_eq (h.counts key hkey)
  have hhandle : ((textOf? "handle" entry).map (Text.trimEndBy (· = ':'))).getD []
      = (textIn (entry.field? "handle")).trimEndBy (· = ':') := by
    rw [← textOf?_getD]
    cases textOf? "handle" entry <;> rfl
  obtain ⟨changes, hchanges, hset⟩ := optionsIn_eq h
  rw [snapshot_steps, hchanges, totalsOf_eq h, hcount "memory_used" (by decide),
    hcount "memory_limit" (by decide), hcount "capacity_estimate" (by decide),
    hcount "min_network_size" (by decide), hcount "max_network_size" (by decide),
    hcount "avg_hdr_offset" (by decide), tinsIn_eq h]
  unfold described
  simp only [Json.at?_singleton, ← hset, ← hhandle, ← textOf?_getD "dev"]
  rfl

/-! ## Fields and their keys -/

/-- **A field of a snapshot** with the path of the key that it is read from. -/
inductive Field : {β : Type} → (Snapshot → β) → List String → Prop
  | interface : Field (·.interface) ["dev"]
  | handle : Field (·.handle) ["handle"]
  | bandwidth : Field (·.options.bandwidth) ["options", "bandwidth"]
  | diffservMode : Field (·.options.diffservMode) ["options", "diffserv"]
  | rtt : Field (·.options.rtt) ["options", "rtt"]
  | overhead : Field (·.options.overhead) ["options", "overhead"]
  | atmMode : Field (·.options.atmMode) ["options", "atm"]
  | mpu : Field (·.options.mpu) ["options", "mpu"]
  | nat : Field (·.options.nat) ["options", "nat"]
  | wash : Field (·.options.wash) ["options", "wash"]
  | total {key : String} {c : Total} (key_mem : (key, c) ∈ totals) : Field (·.totals.get c) [key]
  | memoryUsed : Field (·.memoryUsed) ["memory_used"]
  | memoryTotal : Field (·.memoryTotal) ["memory_limit"]
  | capacityEstimate : Field (·.capacityEstimate) ["capacity_estimate"]
  | minNet : Field (·.sizes.minNet) ["min_network_size"]
  | maxNet : Field (·.sizes.maxNet) ["max_network_size"]
  | headerOffset : Field (·.sizes.headerOffset) ["avg_hdr_offset"]
  | tins : Field (·.tins) ["tins"]

/-- A field of a tin with the key that it is read from. -/
inductive TinField : {β : Type} → (Tin → β) → String → Prop
  | thresh : TinField (·.label .thresh) "threshold_rate"
  | counter {key : String} {c : TinCounter} (key_mem : (key, c) ∈ tinCounters) :
    TinField (·.count c) key

variable {β : Type}

/-- **Each field depends on its own key** and on no other. -/
theorem described_field {get : Snapshot → β} {path : List String} (h : Field get path) (t : Timestamp)
    {v w : List String → Option Json} (heq : v path = w path) :
    get (described t v) = get (described t w) := by
  cases h with
  | total key_mem =>
    simp only [totals, List.mem_cons, Prod.mk.injEq, List.not_mem_nil, or_false] at key_mem
    obtain ⟨rfl, rfl⟩ | ⟨rfl, rfl⟩ | ⟨rfl, rfl⟩ | ⟨rfl, rfl⟩ | ⟨rfl, rfl⟩ := key_mem <;>
      exact congrArg counted heq
  | _ => simp only [described, describedOptions, heq]

theorem describedTin_field {get : Tin → β} {key : String} (h : TinField get key)
    {v w : String → Option Json} (heq : v key = w key) :
    get (describedTin v) = get (describedTin w) := by
  cases h with
  | thresh => exact congrArg (fun v => rendered (countIn v) Text.ofNat) heq
  | counter key_mem =>
    simp only [tinCounters, List.mem_cons, Prod.mk.injEq, List.not_mem_nil, or_false] at key_mem
    obtain ⟨rfl, rfl⟩ | ⟨rfl, rfl⟩ | ⟨rfl, rfl⟩ | ⟨rfl, rfl⟩ := key_mem <;>
      exact congrArg counted heq

/-! ## Numbers -/

theorem counted_int (i : Int) : counted (some (.int i)) = max i 0 := Int.toNat_eq_max i

/-- A fraction is cut off, and nothing is counted below zero. -/
theorem counted_real (negative : Bool) (units : Nat) : counted (some (.real (.finite negative units)))
    = if negative then 0 else ((units / Binary64.unitsOfOne : Nat) : Int) := by
  show ((((Binary64.signed negative units).tdiv Binary64.unitsOfOne).toNat : Nat) : Int) = _
  rw [Binary64.signed_tdiv]
  cases negative with
  | false => rfl
  | true =>
    have hneg : -((units / Binary64.unitsOfOne : Nat) : Int) ≤ 0 :=
      Int.neg_nonpos_of_nonneg (Int.natCast_nonneg _)
    exact congrArg Nat.cast (Int.toNat_of_nonpos hneg)

end Structured

end CakeMonitor
