import CakeMonitor.Proofs.History.SafeRecord
import CakeMonitor.Proofs.Report.Edits
import CakeMonitor.Service

/-!
# Accepted settings are safe

Any text may stand in a variable. Either some variable says what its setting cannot be, and the problems are
told, or every setting has the value its variable spells; and those values are safe to run with: the time
between polls and the timeout are positive, so neither is NaN, and two samples at least are kept.

How texts are coerced is not settled here: what is proved holds of every coercion that takes texts as they are.
Any number of samples can be kept, as memory is taken as unbounded (`Ring.empty`).

* `Settings.Describes`: the settings that an environment describes, said without reading it into values first.
* `Settings.ofEnvironment_spec`: those settings and no others are accepted.
* `Settings.Safe`, `Poller.Fits`: what the service relies on.
* `Settings.accepted_or_refused`: accepted settings are the described ones, they are safe, and so is their
  poller; else nothing is described.
-/

namespace CakeMonitor

/-! ## Fields that come from rows -/

namespace Json

variable {α : Type} {rows : List (String × α)} {value : α → Option Json}

/-- The members that rows give, those without a value left out. -/
def members (value : α → Option Json) (rows : List (String × α)) : List (Text × Json) :=
  (rows.filterMap fun (name, a) => (value a).map fun v => (name, v)).map fun (k, v) => (Text.ofString k, v)

/-- The keys that rows may give. -/
def keys (rows : List (String × α)) : List Text := rows.map fun row => Text.ofString row.1

theorem members_cons (name : String) (a : α) (rows : List (String × α)) :
    members value ((name, a) :: rows)
      = ((value a).map fun v => (Text.ofString name, v)).toList ++ members value rows := by
  cases h : value a <;> simp [members, h]

theorem mem_keys {key : Text} {v : Json} :
    ∀ {rows : List (String × α)}, (key, v) ∈ members value rows → key ∈ keys rows
  | (name, a) :: rows, h => by
    rw [members_cons, List.mem_append] at h
    rcases h with h | h
    · obtain ⟨w, -, hpair⟩ := Option.map_eq_some_iff.mp (Option.mem_toList.mp h)
      obtain ⟨rfl, -⟩ := Prod.mk.inj hpair
      exact List.mem_cons_self
    · exact List.mem_cons_of_mem _ (mem_keys h)

theorem lookup_members_of_notMem {key : Text} (h : key ∉ keys rows) :
    lookup key (members value rows) = none := by
  cases hfound : lookup key (members value rows) with
  | none => rfl
  | some v => exact absurd (mem_keys (mem_of_lookup hfound)) h

/-- Under distinct keys every row is found. -/
theorem lookup_members {name : String} {a : α} :
    ∀ {rows : List (String × α)}, (keys rows).Nodup → (name, a) ∈ rows →
      lookup (name : Text) (members value rows) = value a
  | (first, b) :: rows, hnodup, hmem => by
    obtain ⟨hfirst, hrest⟩ := List.nodup_cons.mp hnodup
    rw [members_cons, lookup_append]
    -- a later member would be found first, but there is none of the same key
    obtain hmem | hmem := List.mem_cons.mp hmem
    · obtain ⟨rfl, rfl⟩ := Prod.mk.inj hmem
      rw [lookup_members_of_notMem hfirst]
      cases value a <;> simp [lookup]
    · have hkey : Text.ofString name ∈ keys rows := List.mem_map_of_mem hmem
      have hne : Text.ofString first ≠ name := fun he =>
        hfirst (show Text.ofString first ∈ keys rows from he ▸ hkey)
      rw [lookup_members hrest hmem]
      cases value a with
      | some v => rfl
      | none => cases value b <;> simp [lookup, hne]

end Json

/-! ## What the variables say -/

namespace Settings

variable {env : Environment} {name : Text}

/-- A variable is set to a text that is not empty; of several entries the first counts. -/
def SetTo (env : Environment) (name : Text) (t : Text) : Prop :=
  t ≠ [] ∧ ∃ before after, env = before ++ (name, t) :: after ∧ ∀ entry ∈ before, entry.1 ≠ name

theorem valueOf?_eq_some {t : Text} : valueOf? env name = some t ↔ SetTo env name t := by
  unfold valueOf? SetTo
  rw [Option.filter_eq_some_iff, Option.map_eq_some_iff]
  constructor
  · rintro ⟨⟨⟨v, u⟩, hfound, rfl⟩, hne⟩
    obtain ⟨hv, before, after, rfl, hbefore⟩ := List.find?_eq_some_iff_append.mp hfound
    obtain rfl : v = name := of_decide_eq_true hv
    exact ⟨of_decide_eq_true hne, before, after, rfl, by simpa using hbefore⟩
  · rintro ⟨hne, before, after, rfl, hbefore⟩
    refine ⟨⟨(name, t), List.find?_eq_some_iff_append.mpr ?_, rfl⟩, decide_eq_true hne⟩
    exact ⟨decide_eq_true rfl, before, after, rfl, by simpa using hbefore⟩

/-- A setting has its default when its variable is unset or empty, and else a value that the text spells. -/
structure Follows {α : Type} (env : Environment) (name : Text) (default : α) (spells : Text → α → Prop)
    (a : α) : Prop where
  unset : (∀ t, ¬ SetTo env name t) → a = default
  set : ∀ t, SetTo env name t → spells t a

section

variable (c : Coercion)

/-- A text spells a positive real. -/
def SpellsPositive (t : Text) (x : Binary64) : Prop := c.real (.text t) = .ok x ∧ Binary64.zero.lt x = true

/-- A text spells an integer. -/
def SpellsInteger (t : Text) (i : Int) : Prop := c.integer (.text t) = .ok i

/-- A text spells the size of a history: an integer, and two where it is less. -/
def SpellsLength (t : Text) (n : Int) : Prop := ∃ i, SpellsInteger c t i ∧ n = max i 2

/-- A text is accepted as such. -/
def SpellsText (t u : Text) : Prop := c.text (.text t) = .ok u

/-- **The settings that an environment describes.** -/
@[mk_iff]
structure Describes (env : Environment) (s : Settings) : Prop where
  pollInterval : Follows env "CAKE_STATS_POLL_INTERVAL" (.ofNat 1) (SpellsPositive c) s.pollInterval
  historySize : Follows env "CAKE_STATS_HISTORY" 300 (SpellsLength c) s.historySize
  program : Follows env "CAKE_STATS_TC_BINARY" ("tc" : Text) (SpellsText c) s.program
  timeout : Follows env "CAKE_STATS_TC_TIMEOUT" (.ofNat 5) (SpellsPositive c) s.timeout
  json : Follows env "CAKE_STATS_TC_JSON" .off
    (fun t m => ∃ u, SpellsText c t u ∧ m.name = u.map JsonMode.lowerCase) s.json
  container : Follows env "CAKE_STATS_CONTAINER" none (fun t o => ∃ u, SpellsText c t u ∧ o = some u) s.container
  corsOrigins : Follows env "CAKE_STATS_CORS_ORIGINS" [("http://localhost:3000" : Text)]
    (fun t os => List.Forall₂ (SpellsText c) (origins t) os) s.corsOrigins
  logLevel : Follows env "CAKE_STATS_LOG_LEVEL" ("INFO" : Text) (SpellsText c) s.logLevel
  host : Follows env "CAKE_STATS_HOST" ("0.0.0.0" : Text) (SpellsText c) s.host
  port : Follows env "CAKE_STATS_PORT" 11112 (SpellsInteger c) s.port

end

variable {c : Coercion}

/-! ## Readings of a text -/

theorem positive_eq_ok {t : Text} {x : Binary64} : positive c (.text t) = .ok x ↔ SpellsPositive c t x := by
  unfold positive SpellsPositive
  rw [bind_eq_ok]
  constructor
  · rintro ⟨y, hy, hx⟩
    split_ifs at hx with hpositive
    obtain rfl := Except.ok.inj hx
    exact ⟨hy, hpositive⟩
  · rintro ⟨hx, hpositive⟩
    exact ⟨x, hx, if_pos hpositive⟩

theorem historyLength_eq_ok {t : Text} {n : Int} :
    historyLength c (.text t) = .ok n ↔ SpellsLength c t n := by
  unfold historyLength SpellsLength
  rw [map_eq_ok]
  exact exists_congr fun i => and_congr_right fun _ => eq_comm

theorem ofText?_eq_some {t : Text} {m : JsonMode} :
    JsonMode.ofText? t = some m ↔ m.name = t.map JsonMode.lowerCase := by
  unfold JsonMode.ofText?
  constructor
  · intro h
    exact of_decide_eq_true (List.find?_some (p := fun m : JsonMode => m.name = t.map JsonMode.lowerCase) h)
  · intro h
    rw [← h]
    cases m <;> decide

theorem jsonMode_eq_ok {t : Text} {m : JsonMode} : jsonMode c (.text t) = .ok m ↔
    ∃ u, SpellsText c t u ∧ m.name = u.map JsonMode.lowerCase := by
  unfold jsonMode
  rw [bind_eq_ok]
  refine exists_congr fun u => and_congr_right fun _ => ?_
  rw [← ofText?_eq_some]
  cases JsonMode.ofText? u with
  | none => exact ⟨nofun, nofun⟩
  | some n => exact ⟨fun h => congrArg some (Except.ok.inj h), fun h => congrArg Except.ok (Option.some.inj h)⟩

theorem optionalText_eq_ok {t : Text} {o : Option Text} :
    optionalText c (.text t) = .ok o ↔ ∃ u, SpellsText c t u ∧ o = some u := by
  show (c.text (.text t)).map some = .ok o ↔ _
  rw [map_eq_ok]
  exact exists_congr fun u => and_congr_right fun _ => eq_comm

/-! ## Settings from values -/

/-- All settings are read from values without a problem. -/
@[mk_iff]
structure ReadsFrom (c : Coercion) (values : Json) (s : Settings) : Prop where
  pollInterval : setting values "poll_interval" (.ofNat 1) (positive c) = (s.pollInterval, [])
  historySize : setting values "history_size" 300 (historyLength c) = (s.historySize, [])
  program : setting values "tc_binary" ("tc" : Text) c.text = (s.program, [])
  timeout : setting values "tc_timeout" (.ofNat 5) (positive c) = (s.timeout, [])
  json : setting values "tc_json" .off (jsonMode c) = (s.json, [])
  container : setting values "container" none (optionalText c) = (s.container, [])
  corsOrigins : listSetting c values "cors_origins" [("http://localhost:3000" : Text)] = (s.corsOrigins, [])
  logLevel : setting values "log_level" ("INFO" : Text) c.text = (s.logLevel, [])
  host : setting values "host" ("0.0.0.0" : Text) c.text = (s.host, [])
  port : setting values "port" 11112 c.integer = (s.port, [])

/-- Values without a problem are read, and others refused with their problems. -/
theorem ofValues_spec (c : Coercion) (values : Json) :
    (∃ s, ofValues values c = .ok s ∧ ReadsFrom c values s) ∨
      ∃ problems, ofValues values c = .error problems ∧ problems ≠ [] ∧ ∀ s, ¬ ReadsFrom c values s := by
  unfold ofValues
  dsimp only
  -- the problems of all settings stand one behind the other: none at all, or some
  split
  · rename_i hproblems
    simp only [List.append_eq_nil_iff] at hproblems
    obtain ⟨⟨⟨⟨⟨⟨⟨⟨⟨h₁, h₂⟩, h₃⟩, h₄⟩, h₅⟩, h₆⟩, h₇⟩, h₈⟩, h₉⟩, h₁₀⟩ := hproblems
    exact .inl ⟨_, rfl, Prod.ext rfl h₁, Prod.ext rfl h₂, Prod.ext rfl h₃, Prod.ext rfl h₄, Prod.ext rfl h₅,
      Prod.ext rfl h₆, Prod.ext rfl h₇, Prod.ext rfl h₈, Prod.ext rfl h₉, Prod.ext rfl h₁₀⟩
  · rename_i problems hproblems
    refine .inr ⟨_, rfl, hproblems, fun s hs => hproblems ?_⟩
    rw [hs.pollInterval, hs.historySize, hs.program, hs.timeout, hs.json, hs.container, hs.corsOrigins,
      hs.logLevel, hs.host, hs.port]
    rfl

/-! ## Settings from the environment -/

section

variable {α : Type} {default a : α} {spells : Text → α → Prop} {read : Json → Except Fault α} {key : String}
  {values : Json}

theorem follows_of_none (h : valueOf? env name = none) : Follows env name default spells a ↔ a = default := by
  have hunset (t : Text) : ¬ SetTo env name t := fun ht => by
    rw [valueOf?_eq_some.mpr ht] at h
    cases h
  exact ⟨fun hfollows => hfollows.unset hunset, fun ha => ⟨fun _ => ha, fun t ht => absurd ht (hunset t)⟩⟩

theorem follows_of_some {t : Text} (h : valueOf? env name = some t) :
    Follows env name default spells a ↔ spells t a := by
  have hset := valueOf?_eq_some.mp h
  refine ⟨fun hfollows => hfollows.set t hset, fun ha => ⟨fun hunset => absurd hset (hunset t), fun u hu => ?_⟩⟩
  obtain rfl : t = u := Option.some.inj (h.symm.trans (valueOf?_eq_some.mpr hu))
  exact ha

/-- What was read without a problem is that value. -/
theorem mk_nil_eq_iff {b : α} : ((b, []) : α × List Problem) = (a, []) ↔ a = b := by
  rw [Prod.mk.injEq, and_iff_left rfl, eq_comm]

/-- A setting follows its variable when it is read from it without a problem. -/
theorem setting_eq_iff (hfield : values.field? key = (valueOf? env name).map .text)
    (hread : ∀ t a, read (.text t) = .ok a ↔ spells t a) :
    setting values key default read = (a, []) ↔ Follows env name default spells a := by
  unfold setting
  rw [hfield]
  cases hvalue : valueOf? env name with
  | none =>
    rw [follows_of_none hvalue]
    exact mk_nil_eq_iff
  | some t =>
    rw [follows_of_some hvalue, ← hread]
    cases hresult : read (.text t) with
    | error fault => simp [hresult]
    | ok b => simp [hresult]

end

/-- The values of one text each, and behind them the list of origins. -/
theorem environmentValues_eq (env : Environment) :
    environmentValues env = .object (Json.members (fun v => (valueOf? env v).map .text) variableOf ++
      ((valueOf? env originsVariable).map fun t =>
        (("cors_origins" : Text), Json.array ((origins t).map .text))).toList) := by
  unfold environmentValues Json.obj Json.members
  rw [List.map_append]
  congr 2
  · simp only [Option.map_map, Function.comp_def]
  · cases valueOf? env originsVariable <;> rfl

theorem nodup_keys_variableOf : (Json.keys variableOf).Nodup := by decide

theorem origins_notMem_keys : ("cors_origins" : Text) ∉ Json.keys variableOf := by decide

theorem field?_environmentValues {key : String} (h : (key, name) ∈ variableOf) :
    (environmentValues env).field? key = (valueOf? env name).map .text := by
  have hkey : Text.ofString key ∈ Json.keys variableOf := List.mem_map_of_mem h
  have hne : ("cors_origins" : Text) ≠ key := fun he => origins_notMem_keys (he ▸ hkey)
  rw [environmentValues_eq, Json.field?, Json.lookup_append, Json.lookup_members nodup_keys_variableOf h]
  cases valueOf? env originsVariable <;> simp [Json.lookup, hne]

theorem field?_origins : (environmentValues env).field? "cors_origins"
    = (valueOf? env originsVariable).map fun t => .array ((origins t).map .text) := by
  rw [environmentValues_eq, Json.field?, Json.lookup_append,
    Json.lookup_members_of_notMem origins_notMem_keys]
  cases valueOf? env originsVariable <;> simp [Json.lookup]

/-- There is no problem with items that are all accepted, and only with those. -/
theorem itemProblems_eq_nil_iff {key : String} {rs : List (Except Fault Text)} :
    rs.zipIdx.filterMap (fun (r, i) => itemProblem? key i r) = [] ↔ ∀ r ∈ rs, ∃ o, r = .ok o := by
  rw [List.filterMap_eq_nil_iff]
  constructor
  · intro h r hr
    obtain ⟨i, hi⟩ := List.mem_iff_getElem?.mp hr
    have hnone : itemProblem? key i r = none := h (r, i) (List.mk_mem_zipIdx_iff_getElem?.mpr hi)
    cases r with
    | ok o => exact ⟨o, rfl⟩
    | error fault => cases hnone
  · rintro h ⟨r, i⟩ hr
    obtain ⟨o, rfl⟩ := h r (List.fst_mem_of_mem_zipIdx hr)
    rfl

theorem map_ok_filterMap {rs : List (Except Fault Text)} (h : ∀ r ∈ rs, ∃ o, r = .ok o) :
    (rs.filterMap Except.toOption).map .ok = rs := by
  induction rs with
  | nil => rfl
  | cons r rs ih =>
    obtain ⟨⟨o, rfl⟩, hrest⟩ := List.forall_mem_cons.mp h
    show Except.ok o :: (rs.filterMap Except.toOption).map .ok = _
    rw [ih hrest]

/-- Items are read without a problem when each of them is accepted. -/
theorem texts_eq_iff {key : String} {items : List Json} {os : List Text} :
    texts c key items = (os, []) ↔ List.Forall₂ (fun v o => c.text v = .ok o) items os := by
  have haccepted : List.Forall₂ (fun v o => c.text v = .ok o) items os ↔ items.map c.text = os.map .ok := by
    rw [← List.forall₂_eq_eq_eq, List.forall₂_map_left_iff, List.forall₂_map_right_iff]
  unfold texts
  rw [haccepted, Prod.mk.injEq, itemProblems_eq_nil_iff]
  constructor
  · rintro ⟨rfl, hall⟩
    exact (map_ok_filterMap hall).symm
  · intro h
    rw [h]
    refine ⟨?_, fun r hr => ?_⟩
    · rw [List.filterMap_map]
      exact List.filterMap_some
    · obtain ⟨o, -, rfl⟩ := List.mem_map.mp hr
      exact ⟨o, rfl⟩

theorem listSetting_eq_iff {default os : List Text} :
    listSetting c (environmentValues env) "cors_origins" default = (os, [])
      ↔ Follows env originsVariable default (fun t os => List.Forall₂ (SpellsText c) (origins t) os) os := by
  unfold listSetting
  rw [field?_origins]
  cases hvalue : valueOf? env originsVariable with
  | none =>
    rw [follows_of_none hvalue]
    exact mk_nil_eq_iff
  | some t =>
    show texts c "cors_origins" ((origins t).map .text) = (os, []) ↔ _
    rw [follows_of_some hvalue, texts_eq_iff, List.forall₂_map_left_iff]
    rfl

theorem readsFrom_iff_describes {s : Settings} :
    ReadsFrom c (environmentValues env) s ↔ Describes c env s := by
  have row {key : String} {name : Text} (h : (key, name) ∈ variableOf) :
      (environmentValues env).field? key = (valueOf? env name).map .text := field?_environmentValues h
  rw [readsFrom_iff, describes_iff]
  -- one setting after the other, each with the reading of its kind
  exact and_congr (setting_eq_iff (row (by decide)) fun _ _ => positive_eq_ok) <|
    and_congr (setting_eq_iff (row (by decide)) fun _ _ => historyLength_eq_ok) <|
    and_congr (setting_eq_iff (row (by decide)) fun _ _ => Iff.rfl) <|
    and_congr (setting_eq_iff (row (by decide)) fun _ _ => positive_eq_ok) <|
    and_congr (setting_eq_iff (row (by decide)) fun _ _ => jsonMode_eq_ok) <|
    and_congr (setting_eq_iff (row (by decide)) fun _ _ => optionalText_eq_ok) <|
    and_congr listSetting_eq_iff <|
    and_congr (setting_eq_iff (row (by decide)) fun _ _ => Iff.rfl) <|
    and_congr (setting_eq_iff (row (by decide)) fun _ _ => Iff.rfl) <|
    setting_eq_iff (row (by decide)) fun _ _ => Iff.rfl

/-- **Settings are accepted when the environment describes some**, and then they are those. -/
theorem ofEnvironment_spec (c : Coercion) (env : Environment) :
    (∃ s, ofEnvironment env c = .ok s ∧ Describes c env s) ∨
      ∃ problems, ofEnvironment env c = .error problems ∧ problems ≠ [] ∧ ∀ s, ¬ Describes c env s := by
  have h := ofValues_spec c (environmentValues env)
  simp only [readsFrom_iff_describes] at h
  exact h

/-! ## What makes settings safe -/

/-- No blank stands at either end. -/
structure IsTrimmed (t : Text) : Prop where
  head : ∀ c ∈ t.head?, c.isBlank = false
  last : ∀ c ∈ t.getLast?, c.isBlank = false

theorem isTrimmed_trim (t : Text) : IsTrimmed t.trim where
  head := by
    obtain ⟨rest, hrest⟩ : t.trim <+: t.dropWhile CodePoint.isBlank := List.rdropWhile_prefix _ _
    intro c hc
    have hfirst := List.head?_dropWhile_not CodePoint.isBlank t
    rw [← hrest, List.head?_append, Option.mem_def.mp hc] at hfirst
    simpa using hfirst
  last := by
    intro c hc
    have hlast := List.head?_dropWhile_not CodePoint.isBlank (t.dropWhile CodePoint.isBlank).reverse
    rw [Text.trim, Text.trimBy, Text.trimEndBy, List.getLast?_reverse] at hc
    rw [hc] at hlast
    simpa using hlast

/-- **Settings that are safe to run with.** -/
structure Safe (s : Settings) : Prop where
  interval : s.pollInterval ≠ .nan ∧ Binary64.zero.lt s.pollInterval = true
  timeout : s.timeout ≠ .nan ∧ Binary64.zero.lt s.timeout = true
  history : 2 ≤ s.historySize
  json : s.json.name ∈ [("off" : Text), ("on" : Text), ("auto" : Text)]
  origins : ∀ origin ∈ s.corsOrigins, origin ≠ [] ∧ IsTrimmed origin

/-- What a variable or a default gives has what both have. -/
theorem Follows.elim {α : Type} {default a : α} {spells : Text → α → Prop} {P : α → Prop}
    (h : Follows env name default spells a) (hdefault : P default) (hspells : ∀ t, spells t a → P a) : P a := by
  cases hvalue : valueOf? env name with
  | none => exact (follows_of_none hvalue).mp h ▸ hdefault
  | some t => exact hspells t ((follows_of_some hvalue).mp h)

theorem SpellsPositive.ne_nan {t : Text} {x : Binary64} (h : SpellsPositive c t x) :
    x ≠ .nan ∧ Binary64.zero.lt x = true := by
  obtain ⟨-, hpositive⟩ := h
  refine ⟨?_, hpositive⟩
  rintro rfl
  cases hpositive

theorem mem_origins {t o : Text} (h : o ∈ origins t) : o ≠ [] ∧ IsTrimmed o := by
  unfold origins at h
  obtain ⟨hpiece, hne⟩ := List.mem_filter.mp h
  obtain ⟨piece, -, rfl⟩ := List.mem_map.mp hpiece
  exact ⟨of_decide_eq_true hne, isTrimmed_trim piece⟩

/-- Origins that are accepted stay as they are. -/
theorem eq_of_spellsTexts (hc : c.TakesTexts) {ts os : List Text} (h : List.Forall₂ (SpellsText c) ts os) :
    os = ts := by
  have heq : List.Forall₂ Eq ts os := h.imp fun _ _ ho => (hc.eq_of_ok ho).symm
  exact (List.forall₂_eq_eq_eq ▸ heq : ts = os).symm

theorem Describes.safe {s : Settings} (hc : c.TakesTexts) (h : Describes c env s) : s.Safe where
  interval := h.pollInterval.elim (P := fun x => x ≠ .nan ∧ Binary64.zero.lt x = true) (by decide +kernel)
    fun _ => SpellsPositive.ne_nan
  timeout := h.timeout.elim (P := fun x => x ≠ .nan ∧ Binary64.zero.lt x = true) (by decide +kernel)
    fun _ => SpellsPositive.ne_nan
  history := by
    refine h.historySize.elim (P := fun n => 2 ≤ n) (by decide) fun t ht => ?_
    obtain ⟨i, -, hn⟩ := ht
    omega
  json := by cases s.json <;> decide
  origins := by
    refine h.corsOrigins.elim (P := fun os => ∀ origin ∈ os, origin ≠ [] ∧ IsTrimmed origin) ?_ ?_
    · intro origin horigin
      obtain rfl := List.mem_singleton.mp horigin
      exact ⟨by decide, by decide, by decide⟩
    · rintro t hos origin horigin
      exact mem_origins (eq_of_spellsTexts hc hos ▸ horigin)

end Settings

/-! ## The poller of accepted settings -/

/-- **A poller that is fit for its settings**: it keeps as many samples as they say, whatever it tries to
record, and its interval is a divisor that every rate can be taken over. -/
structure Poller.Fits (p : Poller) (s : Settings) : Prop where
  interval : p.interval = s.pollInterval
  capacity : (p.history.capacity : Int) = s.historySize
  rings : ∀ (attempts : List Attempt) (i : Text) (track : Track),
    (p.history.after attempts).track? i = some track → (track.samples.capacity : Int) = s.historySize
  rates : ∀ current previous : Int, ¬ TooMuch current previous →
    ∃ x, growth current previous p.interval = .ok x ∧ x.Nonnegative
  divisor : ∀ (current previous : Int) (now last : Binary64),
    growth current previous (Store.elapsed now last p.interval) ≠ .error .divisionByZero

theorem capacity_poller {s : Settings} (h : s.Safe) : (s.poller.history.capacity : Int) = s.historySize := by
  show ((max s.historySize.toNat minCapacity : Nat) : Int) = s.historySize
  have htwo := h.history
  unfold minCapacity
  omega

theorem growth_ne_divisionByZero (current previous : Int) {seconds : Binary64} (h : seconds.isZero = false) :
    growth current previous seconds ≠ .error .divisionByZero := by
  by_cases htooMuch : TooMuch current previous
  · rw [growth_of_tooMuch htooMuch]
    nofun
  · rw [growth_of_not_tooMuch htooMuch h]
    nofun

theorem Settings.Safe.fits {s : Settings} (h : s.Safe) : s.poller.Fits s where
  interval := rfl
  capacity := capacity_poller h
  rings attempts i track htrack := by
    have hshape := Store.wellShaped_after (Store.wellShaped_empty s.historySize) attempts
    rw [(hshape.shape i track htrack).1, Store.capacity_after]
    exact capacity_poller h
  rates current previous hgrowth := by
    have hpositive : Binary64.zero.lt s.pollInterval = true := h.interval.2
    have hzero : s.pollInterval.isZero = false := by
      rw [← Bool.not_eq_true]
      intro hzero
      rw [(le_zero_of_isZero hzero).2] at hpositive
      cases hpositive
    exact ⟨_, growth_of_not_tooMuch hgrowth hzero, nonnegative_rate hgrowth hpositive⟩
  divisor current previous now last :=
    growth_ne_divisionByZero current previous (isZero_elapsed h.interval.2 now last)

namespace Settings

/-- **Accepted settings are safe to run with**, whatever coercion reads them, as long as it takes texts as they
are: from any environment come either problems, when nothing is described by it, or the settings it describes;
they are safe, and so is the poller they make. -/
theorem accepted_or_refused (hc : c.TakesTexts) (env : Environment) :
    (∃ s, ofEnvironment env c = .ok s ∧ Describes c env s ∧ s.Safe ∧ s.poller.Fits s) ∨
      ∃ problems, ofEnvironment env c = .error problems ∧ problems ≠ [] ∧ ∀ s, ¬ Describes c env s := by
  rcases ofEnvironment_spec c env with ⟨s, haccepted, hdescribes⟩ | hrefused
  · exact .inl ⟨s, haccepted, hdescribes, hdescribes.safe hc, (hdescribes.safe hc).fits⟩
  · exact .inr hrefused

/-- Variables with spelled numbers, a mode in mixed case and a list of origins with blanks. -/
def variedEnvironment : Environment :=
  [("CAKE_STATS_POLL_INTERVAL", " 2.5\t"), ("CAKE_STATS_HISTORY", "-7"), ("CAKE_STATS_TC_TIMEOUT", "1_0.5"),
   ("CAKE_STATS_TC_JSON", "aUtO"), ("CAKE_STATS_HOST", ""), ("CAKE_STATS_CORS_ORIGINS", " http://a ,, http://b")]

/-- They are accepted with at least two samples, and an interval that is not a number is refused. -/
theorem accepted_or_refused_varied : Coercion.lax.TakesTexts ∧
    (∃ s, ofEnvironment variedEnvironment = .ok s ∧ s.historySize = 2 ∧
      s.corsOrigins = ["http://a", "http://b"] ∧ s.Safe ∧ s.poller.Fits s) ∧
    ∃ problems, ofEnvironment [("CAKE_STATS_POLL_INTERVAL", "nan")] = .error problems ∧ problems ≠ [] := by
  have hlax := Coercion.takesTexts_lax
  have hread : ((ofEnvironment variedEnvironment).map fun s => (s.historySize, s.corsOrigins)).toOption
      = some ((2, ["http://a", "http://b"]) : Int × List Text) := by
    decide +kernel
  have hnan : (ofEnvironment [("CAKE_STATS_POLL_INTERVAL", "nan")]).toOption = none := by decide +kernel
  refine ⟨hlax, ?_, ?_⟩
  · obtain ⟨s, hs, -, hsafe, hfits⟩ | ⟨problems, hproblems, -⟩ := accepted_or_refused hlax variedEnvironment
    · rw [hs] at hread
      obtain ⟨hsize, horigins⟩ := Prod.mk.inj (Option.some.inj hread)
      exact ⟨s, hs, hsize, horigins, hsafe, hfits⟩
    · rw [hproblems] at hread
      cases hread
  · obtain ⟨s, hs, -⟩ | ⟨problems, hproblems, hne, -⟩ :=
      accepted_or_refused hlax [("CAKE_STATS_POLL_INTERVAL", "nan")]
    · rw [hs] at hnan
      cases hnan
    · exact ⟨problems, hproblems, hne⟩

end Settings

end CakeMonitor
