import CakeMonitor.Proofs.Command.Exchanges
import Mathlib.Data.List.Induction

/-!
# What an executor keeps of the container service

An executor with a container keeps the connection to the container service and the container that it found.
Whether it asks again follows from the calls of all earlier commands and their answers: it connects until a
connection was made, and looks up the container unless it found one in which no run has failed through the
service.

* `Reached`, `known?`, `lastFound?`: what the calls so far say.
* `Site.Follows`: what the site keeps is what its calls say.
* `Executor.Acquires`, `Executor.Commands`: all that looking up the container and running a command in it can
  come to; `Executor.follows_of_finding` and `Executor.runInContainer_leads` say that they come to this.
* `Executor.Disciplined`: the rules for the calls of one command.
* `Executor.turns_disciplined`: every command of every sequence obeys them.
-/

namespace CakeMonitor

/-- Whether a run ended in an error of the container service or on the way to it. -/
def Fate.isServiceError : Fate → Bool
  | .raises trouble _ => trouble.isService
  | _ => false

/-! ## What the calls so far say -/

/-- A connection to the container service was made. -/
def Reached (past : List Exchange) : Prop := ∃ answer, .connect answer ∈ past ∧ answer ≠ .unavailable

/-- The last container found after one more exchange. -/
def Exchange.lastFound (last : Option Container) : Exchange → Option Container
  | .find _ (.found new) => some new
  | _ => last

/-- The good container known after one more exchange: one that is found, until a run in it ends in an error
of the container service. -/
def Exchange.known (last : Option Container) : Exchange → Option Container
  | .find _ (.found new) => some new
  | .exec old _ run => if last = some old ∧ run.fate.isServiceError then none else last
  | _ => last

theorem Exchange.known_exec (last : Option Container) (old : Container) (command : List Text) (run : Run) :
    (Exchange.exec old command run).known last
      = if last = some old ∧ run.fate.isServiceError then none else last := rfl

/-- The container of the latest successful look-up. -/
def lastFound? (past : List Exchange) : Option Container := past.foldl Exchange.lastFound none

/-- The last container found, unless a run in it ended in an error of the container service. -/
def known? (past : List Exchange) : Option Container := past.foldl Exchange.known none

theorem reached_append {past xs : List Exchange} : Reached (past ++ xs) ↔ Reached past ∨ Reached xs := by
  unfold Reached
  simp only [List.mem_append, or_and_right, exists_or]

theorem known?_concat (past : List Exchange) (x : Exchange) :
    known? (past ++ [x]) = x.known (known? past) := List.foldl_append

theorem lastFound?_concat (past : List Exchange) (x : Exchange) :
    lastFound? (past ++ [x]) = x.lastFound (lastFound? past) := List.foldl_append

/-- A good container is the last one found. -/
theorem lastFound?_of_known? {past : List Exchange} {c : Container} (h : known? past = some c) :
    lastFound? past = some c := by
  induction past using List.reverseRecOn with
  | nil => exact h
  | append_singleton past x ih =>
    rw [known?_concat] at h
    rw [lastFound?_concat]
    cases x with
    | find name answer =>
      cases answer with
      | found new => exact h
      | notFound => exact ih h
      | unavailable => exact ih h
    | exec old command run =>
      rw [Exchange.known_exec] at h
      split_ifs at h
      exact ih h
    | spawn _ _ | kill | connect _ | disconnect => exact ih h

/-- **What the site keeps** is what the calls so far say. -/
structure Site.Follows (s : Site) (past : List Exchange) : Prop where
  connected : s.connected = true ↔ Reached past
  container : s.container = known? past
  reached : known? past ≠ none → Reached past

/-- The exchange makes a connection. -/
def Exchange.Connects : Exchange → Prop
  | .connect answer => answer ≠ .unavailable
  | _ => False

theorem reached_concat {past : List Exchange} {x : Exchange} :
    Reached (past ++ [x]) ↔ Reached past ∨ x.Connects := by
  have hone : (∃ answer, .connect answer = x ∧ answer ≠ .unavailable) ↔ x.Connects := by
    constructor
    · rintro ⟨answer, rfl, hmade⟩
      exact hmade
    · intro hx
      cases x with
      | connect answer => exact ⟨answer, rfl, hx⟩
      | _ => cases hx
  unfold Reached
  simp only [List.mem_append, List.mem_singleton, or_and_right, exists_or, hone]

namespace Site.Follows

variable {s s' : Site} {past : List Exchange} {x : Exchange}

/-- One more exchange: nothing is found without a connection. -/
theorem concat (h : s.Follows past)
    (hconnected : s'.connected = true ↔ s.connected = true ∨ x.Connects)
    (hcontainer : s'.container = x.known s.container)
    (hfind : ∀ name new, x = .find name (.found new) → s.connected = true) :
    s'.Follows (past ++ [x]) := by
  refine ⟨?_, ?_, fun hknown => ?_⟩
  · rw [reached_concat, hconnected, h.connected]
  · rw [known?_concat, hcontainer, h.container]
  · rw [reached_concat]
    left
    rw [known?_concat] at hknown
    match x with
    | .find name (.found new) => exact h.connected.mp (hfind name new rfl)
    | .exec old command run =>
      refine h.reached fun hnone => hknown ?_
      rw [Exchange.known_exec, hnone, if_neg nofun]
    | .find _ .notFound | .find _ .unavailable | .spawn _ _ | .kill | .connect _ | .disconnect =>
      exact h.reached hknown

/-- One more exchange that changes nothing of what is kept. -/
theorem concat_same (h : s.Follows past) (hkept : s.SameKept s') (hconnects : ¬ x.Connects)
    (hknown : x.known s.container = s.container) (hfind : ∀ name new, x ≠ .find name (.found new)) :
    s'.Follows (past ++ [x]) := by
  refine h.concat ?_ (hkept.container.trans hknown.symm) fun name new hx => absurd hx (hfind name new)
  rw [hkept.connected]
  exact (or_iff_left hconnects).symm

end Site.Follows

/-! ## One command -/

namespace Executor

/-- How the connection comes about: there is one already, or one is made. -/
inductive Connects (past : List Exchange) : List Exchange → Prop
  | already (reached : Reached past) : Connects past []
  | newly {answer : Lookup} (unreached : ¬ Reached past) (made : answer ≠ .unavailable) :
      Connects past [.connect answer]

/-- All that looking up the container can come to: it is known, or there is no connection, or the service
is asked. -/
inductive Acquires (name : Text) (past : List Exchange) :
    List Exchange → Except Failure Container → Prop
  | known {c : Container} (known : known? past = some c) : Acquires name past [] (.ok c)
  | unreachable (unknown : known? past = none) (unreached : ¬ Reached past) :
      Acquires name past [.connect .unavailable] (.error (.command (.noService "socket missing")))
  | found {xs : List Exchange} {c : Container} (unknown : known? past = none)
      (connects : Connects past xs) : Acquires name past (xs ++ [.find name (.found c)]) (.ok c)
  | missing {xs : List Exchange} (unknown : known? past = none) (connects : Connects past xs) :
      Acquires name past (xs ++ [.find name .notFound]) (.error (.command (.noContainer name)))
  | refused {xs : List Exchange} (unknown : known? past = none) (connects : Connects past xs) :
      Acquires name past (xs ++ [.find name .unavailable])
        (.error (.command (.noService "socket missing")))

/-- What a run in the container comes to. -/
def outcome (e : Executor) (command : List Text) (r : Run) : Except Failure (Int × Text) :=
  match r.fate with
  | .hangs => .error (.command (.timedOut command e.timeout))
  | .interrupted => .error .stopped
  | .raises trouble message =>
    if trouble.isService then .error (.command (.notExecuted message))
    else .error (.raised trouble message)
  | .ends | .refused _ => .ok (r.exit, Utf8.decodeLossy r.out)

/-- All that a command can come to: there is no container to run it in, or it is run in one. -/
inductive Commands (e : Executor) (name : Text) (past : List Exchange) (command : List Text) :
    List Exchange → Except Failure (Int × Text) → Prop
  | unfound {xs : List Exchange} {f : Failure} (acquires : Acquires name past xs (.error f)) :
      Commands e name past command xs (.error f)
  | ran {xs : List Exchange} {c : Container} (r : Run) (acquires : Acquires name past xs (.ok c)) :
      Commands e name past command (xs ++ [.exec c command r]) (e.outcome command r)

variable {s : Site} {past xs : List Exchange} {name : Text}

/-- A container that is acquired is known. -/
theorem known_of_acquires {c : Container} (h : Acquires name past xs (.ok c)) :
    known? (past ++ xs) = some c := by
  cases h with
  | known known => rwa [List.append_nil]
  | found _ _ =>
    rw [← List.append_assoc, known?_concat]
    rfl

theorem reached_of_acquires {c : Container} (hreached : known? past ≠ none → Reached past)
    (h : Acquires name past xs (.ok c)) : Reached (past ++ xs) := by
  cases h with
  | known known =>
    rw [List.append_nil]
    exact hreached (by rw [known]; exact Option.some_ne_none c)
  | found _ connects =>
    cases connects with
    | already reached => exact reached_append.mpr (.inl reached)
    | newly _ made => exact reached_append.mpr (.inr ⟨_, List.mem_cons_self, made⟩)

/-- Connecting follows the calls so far. -/
theorem follows_of_connecting {s' : Site} {result : Except Failure Unit} (h : s.Follows past)
    (hconnecting : Connecting s xs result s') : s'.Follows (past ++ xs) ∧ s'.container = s.container ∧
      (result = .ok () → s'.connected = true ∧ Connects past xs) := by
  have hunreached (hunconnected : s.connected = false) : ¬ Reached past := fun hreached =>
    Bool.false_ne_true (hunconnected.symm.trans (h.connected.mpr hreached))
  cases hconnecting with
  | already connected =>
    rw [List.append_nil]
    exact ⟨h, rfl, fun _ => ⟨connected, .already (h.connected.mp connected)⟩⟩
  | refused _ kept => exact ⟨h.concat_same kept (fun hmade => hmade rfl) rfl nofun, kept.container, nofun⟩
  | made unconnected answered kept =>
    refine ⟨h.concat (iff_of_true rfl (.inr answered)) kept.container nofun, kept.container, fun _ => ?_⟩
    exact ⟨rfl, .newly (hunreached unconnected) answered⟩

/-- Looking up the container follows the calls so far. -/
theorem follows_of_finding {s' : Site} {result : Except Failure Container} (h : s.Follows past)
    (hfinding : Finding name s xs result s') :
    s'.Follows (past ++ xs) ∧ Acquires name past xs result := by
  cases hfinding with
  | known known =>
    rw [List.append_nil]
    exact ⟨h, .known (h.container.symm.trans known)⟩
  | unconnected unknown connecting =>
    refine ⟨(follows_of_connecting h connecting).1, ?_⟩
    cases connecting with
    | refused unconnected _ =>
      refine .unreachable (h.container.symm.trans unknown) fun hreached => ?_
      exact Bool.false_ne_true (unconnected.symm.trans (h.connected.mpr hreached))
  | @asked xs answer s₁ s₂ unknown connecting kept =>
    have hunknown : known? past = none := h.container.symm.trans unknown
    obtain ⟨hfollows, -, hall⟩ := follows_of_connecting h connecting
    obtain ⟨hmade, hconnects⟩ := hall rfl
    rw [← List.append_assoc]
    cases answer with
    | found new =>
      refine ⟨hfollows.concat ?_ rfl fun _ _ _ => hmade, .found hunknown hconnects⟩
      exact (iff_of_eq (congrArg (· = true) kept.connected)).trans (or_iff_left nofun).symm
    | notFound => exact ⟨hfollows.concat_same kept nofun rfl nofun, .missing hunknown hconnects⟩
    | unavailable => exact ⟨hfollows.concat_same kept nofun rfl nofun, .refused hunknown hconnects⟩

/-- What is left of a command once its run in the container has ended. -/
theorem outcome_leads (e : Executor) (command : List Text) (r : Run) (s : Site) :
    Leads (match r.fate with
      | .hangs => throw (.command (.timedOut command e.timeout))
      | .interrupted => throw .stopped
      | .raises trouble message =>
        if trouble.isService then do
          modify fun s => { s with container := none }
          throw (.command (.notExecuted message))
        else throw (.raised trouble message)
      | .ends | .refused _ => return (r.exit, Utf8.decodeLossy r.out)) s [] (e.outcome command r)
      (if r.fate.isServiceError then { s with container := none } else s) := by
  unfold outcome
  cases r.fate with
  | ends => exact leads_pure _ s
  | refused reason => exact leads_pure _ s
  | hangs => exact leads_throw _ s
  | interrupted => exact leads_throw _ s
  | raises trouble message =>
    show Leads _ s [] _ (if trouble.isService then { s with container := none } else s)
    cases htrouble : trouble.isService with
    | true =>
      simp only [htrouble, if_true]
      exact leads_bind_silent (leads_modify rfl) (leads_throw _ _)
    | false =>
      simp only [htrouble, Bool.false_eq_true, if_false]
      exact leads_throw _ s

theorem runInContainer_leads (e : Executor) (name : Text) (command : List Text) (h : s.Follows past) :
    ∃ xs result s', Leads (e.runInContainer name command) s xs result s' ∧ s'.Follows (past ++ xs) ∧
      e.Commands name past command xs result := by
  unfold runInContainer
  obtain ⟨xs, found, s₁, hfind, hfinding⟩ := findContainer_leads name s
  obtain ⟨hfollows, hacquires⟩ := follows_of_finding h hfinding
  cases found with
  | error f => exact ⟨xs, .error f, s₁, leads_bind_error hfind, hfollows, .unfound hacquires⟩
  | ok c =>
    obtain ⟨r, s₂, hrun, hkept⟩ := leads_exec c command s₁
    refine ⟨xs ++ [.exec c command r], e.outcome command r, _,
      leads_bind hfind (leads_bind hrun (outcome_leads e command r s₂)), ?_, .ran r hacquires⟩
    have hconnected : s₂.connected = true ↔ s₁.connected = true :=
      iff_of_eq (congrArg (· = true) hkept.connected)
    have hknown : s₁.container = some c := hfollows.container.trans (known_of_acquires hacquires)
    rw [← List.append_assoc]
    cases hgood : r.fate.isServiceError with
    | false =>
      refine hfollows.concat_same hkept nofun ?_ nofun
      rw [Exchange.known_exec, if_neg]
      exact fun hboth => Bool.false_ne_true (hgood.symm.trans hboth.2)
    | true =>
      refine hfollows.concat (hconnected.trans (or_iff_left nofun).symm) ?_ nofun
      rw [Exchange.known_exec]
      exact (if_pos ⟨hknown, hgood⟩).symm

/-! ## The rules -/

/-- The connection is still there, and the container is the one that is known. -/
structure Turn.Keeps (t : Turn) (c : Container) : Prop where
  connected : t.after.connected = true
  container : t.after.container = some c

/-- What a command gives whose run in a container ended so. An exception that counts as a timeout of its own
is left out. -/
structure Turn.Ends (t : Turn) (e : Executor) (c : Container) (command : List Text) (r : Run) : Prop where
  ended : r.fate = .ends → t.result = .ok (r.exit, Utf8.decodeLossy r.out)
  service : ∀ trouble message, r.fate = .raises trouble message → trouble.isService = true →
    t.result = .error (.command (.notExecuted message))
  timedOut : r.fate = .hangs → t.result = .error (.command (.timedOut command e.timeout)) ∧ t.Keeps c
  raised : ∀ trouble message, r.fate = .raises trouble message → trouble.isService = false →
    trouble.kind ≠ "TimeoutError" → t.result = .error (.raised trouble message) ∧ t.Keeps c

/-- A run in a container. -/
def isRun : Exchange → Bool
  | .exec .. => true
  | _ => false

/-- Why there is no container after that answer. -/
def failure? (name : Text) : Exchange → Option CommandError
  | .connect .unavailable | .find _ .unavailable => some (.noService "socket missing")
  | .find _ .notFound => some (.noContainer name)
  | _ => none

/-- **The rules for the calls of a command** behind the calls of earlier ones. It connects when no connection
was made, it looks up the container when none is known and the service can be reached, and it runs at most
once, in the container that was found last. -/
structure Disciplined (e : Executor) (name : Text) (past : List Exchange) (t : Turn) : Prop where
  connects : (∃ answer, .connect answer ∈ t.exchanges) ↔ ¬ Reached past
  looksUp : (∃ answer, .find name answer ∈ t.exchanges) ↔
    known? past = none ∧ .connect .unavailable ∉ t.exchanges
  named : ∀ n answer, .find n answer ∈ t.exchanges → n = name
  once : (t.exchanges.filter isRun).length ≤ 1
  runs : ∀ c command r, .exec c command r ∈ t.exchanges → command = e.program :: t.arguments ∧
    lastFound? (past ++ t.exchanges) = some c ∧ t.Ends e c command r
  fails : ∀ x ∈ t.exchanges, ∀ f, failure? name x = some f → t.result = .error (.command f)
  answers : (∃ x ∈ t.exchanges, failure? name x ≠ none) ∨
    ∃ c r, .exec c (e.program :: t.arguments) r ∈ t.exchanges

/-! ### The calls for the container -/

theorem mem_connects (h : Connects past xs) {x : Exchange} (hx : x ∈ xs) :
    ∃ answer, x = .connect answer ∧ answer ≠ .unavailable := by
  cases h with
  | already => cases hx
  | newly _ made => exact ⟨_, List.mem_singleton.mp hx, made⟩

theorem exists_connect_iff (h : Connects past xs) : (∃ answer, .connect answer ∈ xs) ↔ ¬ Reached past := by
  cases h with
  | already reached => exact iff_of_false nofun (not_not_intro reached)
  | newly unreached _ => exact iff_of_true ⟨_, List.mem_singleton_self _⟩ unreached

/-- The rules for the calls that a look-up makes. -/
structure Asks (name : Text) (past xs : List Exchange) : Prop where
  connects : (∃ answer, .connect answer ∈ xs) ↔ ¬ Reached past
  looksUp : (∃ answer, .find name answer ∈ xs) ↔ known? past = none ∧ .connect .unavailable ∉ xs
  named : ∀ n answer, .find n answer ∈ xs → n = name
  quiet : ∀ x ∈ xs, isRun x = false

theorem asks_asked (h : Connects past xs) (hunknown : known? past = none) (answer : Lookup) :
    Asks name past (xs ++ [.find name answer]) := by
  have hmem {x : Exchange} : x ∈ xs ++ [.find name answer] ↔ x ∈ xs ∨ x = .find name answer := by
    rw [List.mem_append, List.mem_singleton]
  refine ⟨?_, ?_, fun n a hn => ?_, fun x hx => ?_⟩
  · rw [← exists_connect_iff h]
    simp only [hmem, reduceCtorEq, or_false]
  · refine iff_of_true ⟨answer, hmem.mpr (.inr rfl)⟩ ⟨hunknown, fun hfailed => ?_⟩
    obtain hfailed | hfailed := hmem.mp hfailed
    · obtain ⟨a, ha, hmade⟩ := mem_connects h hfailed
      exact hmade (Exchange.connect.inj ha).symm
    · cases hfailed
  · obtain hn | hn := hmem.mp hn
    · obtain ⟨a, ha, -⟩ := mem_connects h hn
      cases ha
    · exact (Exchange.find.inj hn).1
  · obtain hx | rfl := hmem.mp hx
    · obtain ⟨a, rfl, -⟩ := mem_connects h hx
      rfl
    · rfl

theorem asks_of_acquires {found : Except Failure Container} (hreached : known? past ≠ none → Reached past)
    (h : Acquires name past xs found) : Asks name past xs := by
  cases h with
  | @known c known =>
    have hknown : known? past ≠ none := by
      rw [known]
      exact Option.some_ne_none c
    exact ⟨iff_of_false nofun (not_not_intro (hreached hknown)),
      iff_of_false nofun fun hboth => hknown hboth.1, nofun, nofun⟩
  | unreachable unknown unreached =>
    refine ⟨iff_of_true ⟨_, List.mem_singleton_self _⟩ unreached, iff_of_false ?_ ?_, ?_, ?_⟩
    · rintro ⟨answer, hfind⟩
      cases List.mem_singleton.mp hfind
    · exact fun hboth => hboth.2 (List.mem_singleton_self _)
    · intro n answer hfind
      cases List.mem_singleton.mp hfind
    · intro x hx
      rw [List.mem_singleton.mp hx]
      rfl
  | found unknown connects => exact asks_asked connects unknown _
  | missing unknown connects => exact asks_asked connects unknown _
  | refused unknown connects => exact asks_asked connects unknown _

/-- The answers of a connection that is made are no failure. -/
theorem failure?_connects (h : Connects past xs) {x : Exchange} (hx : x ∈ xs) : failure? name x = none := by
  obtain ⟨answer, rfl, hmade⟩ := mem_connects h hx
  cases answer with
  | found c => rfl
  | notFound => rfl
  | unavailable => exact absurd rfl hmade

/-- A failed answer is the result of the look-up. -/
theorem fails_of_acquires {found : Except Failure Container} (h : Acquires name past xs found) {x : Exchange}
    (hx : x ∈ xs) {f : CommandError} (hf : failure? name x = some f) : found = .error (.command f) := by
  have hasked {ys : List Exchange} (hconnects : Connects past ys) {answer : Lookup}
      (hx : x ∈ ys ++ [.find name answer]) : failure? name (.find name answer) = some f := by
    obtain hx | hx := List.mem_append.mp hx
    · rw [failure?_connects hconnects hx] at hf
      cases hf
    · rw [← List.mem_singleton.mp hx]
      exact hf
  cases h with
  | known => cases hx
  | unreachable =>
    rw [List.mem_singleton.mp hx] at hf
    rw [← Option.some.inj hf]
  | found _ connects => cases hasked connects hx
  | missing _ connects => rw [← Option.some.inj (hasked connects hx)]
  | refused _ connects => rw [← Option.some.inj (hasked connects hx)]

theorem exists_failure {f : Failure} (h : Acquires name past xs (.error f)) :
    ∃ x ∈ xs, failure? name x ≠ none := by
  cases h with
  | unreachable => exact ⟨_, List.mem_singleton_self _, nofun⟩
  | missing | refused =>
    exact ⟨_, List.mem_append_right _ (List.mem_singleton_self _), nofun⟩

/-! ### The run -/

theorem ends_of_outcome {e : Executor} {t : Turn} {c : Container} {command : List Text} {r : Run}
    (hresult : t.result = e.outcome command r) (hconnected : t.after.connected = true)
    (hcontainer : t.after.container = (Exchange.exec c command r).known (some c)) :
    t.Ends e c command r := by
  have hkeeps (hgood : r.fate.isServiceError = false) : t.Keeps c := by
    refine ⟨hconnected, hcontainer.trans ?_⟩
    rw [Exchange.known_exec, if_neg]
    exact fun hboth => Bool.false_ne_true (hgood.symm.trans hboth.2)
  unfold outcome at hresult
  refine ⟨fun hfate => ?_, fun trouble message hfate hservice => ?_, fun hfate => ?_,
    fun trouble message hfate hservice _ => ?_⟩
  · rw [hresult, hfate]
  · rw [hresult, hfate]
    exact if_pos hservice
  · refine ⟨?_, hkeeps (by rw [hfate]; rfl)⟩
    rw [hresult, hfate]
  · refine ⟨?_, hkeeps (by rw [hfate]; exact hservice)⟩
    rw [hresult, hfate]
    exact if_neg (Bool.eq_false_iff.mp hservice)

theorem disciplined_of_commands {e : Executor} {t : Turn} (hreached : known? past ≠ none → Reached past)
    (h : e.Commands name past (e.program :: t.arguments) t.exchanges t.result)
    (hfollows : t.after.Follows (past ++ t.exchanges)) : e.Disciplined name past t := by
  generalize hxs : t.exchanges = xs at h hfollows
  generalize hresult : t.result = result at h
  cases h with
  | unfound acquires =>
    have hasks := asks_of_acquires hreached acquires
    rw [← hxs] at hasks
    have hquiet : t.exchanges.filter isRun = [] :=
      List.filter_eq_nil_iff.mpr fun x hx => Bool.eq_false_iff.mp (hasks.quiet x hx)
    refine ⟨hasks.connects, hasks.looksUp, hasks.named, by rw [hquiet]; exact Nat.zero_le 1, ?_, ?_,
      .inl (hxs ▸ exists_failure acquires)⟩
    · intro c command r hrun
      cases hasks.quiet _ hrun
    · intro x hx f hf
      rw [hxs] at hx
      rw [hresult, Except.error.inj (fails_of_acquires acquires hx hf)]
  | @ran ys c r acquires =>
    have hasks := asks_of_acquires hreached acquires
    have hknown := known_of_acquires acquires
    have hmem {x : Exchange} :
        x ∈ t.exchanges ↔ x ∈ ys ∨ x = .exec c (e.program :: t.arguments) r := by
      rw [hxs, List.mem_append, List.mem_singleton]
    rw [← List.append_assoc] at hfollows
    refine ⟨?_, ?_, fun n answer hn => ?_, ?_, fun c' command r' hrun => ?_, fun x hx f hf => ?_,
      .inr ⟨c, r, hmem.mpr (.inr rfl)⟩⟩
    · simp only [hmem, reduceCtorEq, or_false]
      exact hasks.connects
    · simp only [hmem, reduceCtorEq, or_false]
      exact hasks.looksUp
    · exact hasks.named n answer ((hmem.mp hn).resolve_right nofun)
    · have hquiet : ys.filter isRun = [] :=
        List.filter_eq_nil_iff.mpr fun x hx => Bool.eq_false_iff.mp (hasks.quiet x hx)
      rw [hxs, List.filter_append, hquiet]
      exact Nat.le_refl 1
    · obtain hrun | hrun := hmem.mp hrun
      · cases hasks.quiet _ hrun
      · obtain ⟨rfl, rfl, rfl⟩ := Exchange.exec.inj hrun
        have hlast : lastFound? (past ++ t.exchanges) = some c' := by
          rw [hxs, ← List.append_assoc, lastFound?_concat]
          exact lastFound?_of_known? hknown
        refine ⟨rfl, hlast, ends_of_outcome hresult (hfollows.connected.mpr ?_) ?_⟩
        · exact reached_append.mpr (.inl (reached_of_acquires hreached acquires))
        · rw [hfollows.container, known?_concat, hknown]
    · obtain hx | rfl := hmem.mp hx
      · cases fails_of_acquires acquires hx hf
      · cases hf

/-! ### Sequences of commands -/

/-- One command obeys the rules, and what is kept after it is what the calls say. -/
theorem turn_disciplined {e : Executor} (hname : e.container = some name) (h : s.Follows past)
    (arguments : List Text) :
    e.Disciplined name past (e.turn s arguments) ∧
      (e.turn s arguments).after.Follows (past ++ (e.turn s arguments).exchanges) := by
  obtain ⟨xs, result, s', hleads, hfollows, hcommands⟩ :=
    runInContainer_leads e name (e.program :: arguments) h
  rw [← run_inContainer arguments hname] at hleads
  rw [turn_eq hleads]
  exact ⟨disciplined_of_commands h.reached hcommands hfollows, hfollows⟩

theorem turns_follow {e : Executor} (hname : e.container = some name) (h : s.Follows past)
    {commands : List (List Text)} {earlier later : List Turn} {t : Turn}
    (hturns : e.turns s commands = earlier ++ t :: later) :
    e.Disciplined name (past ++ earlier.flatMap Turn.exchanges) t := by
  induction earlier generalizing s past commands with
  | nil =>
    cases commands with
    | nil => cases hturns
    | cons arguments rest =>
      obtain ⟨rfl, -⟩ := List.cons.inj hturns
      rw [List.flatMap_nil, List.append_nil]
      exact (turn_disciplined hname h arguments).1
  | cons first earlier ih =>
    cases commands with
    | nil => cases hturns
    | cons arguments rest =>
      obtain ⟨rfl, hrest⟩ := List.cons.inj hturns
      have hfollows := (turn_disciplined hname h arguments).2
      rw [List.flatMap_cons, ← List.append_assoc]
      exact ih hfollows hrest

theorem follows_new (hconnected : s.connected = false) (hcontainer : s.container = none) :
    s.Follows [] where
  connected := iff_of_false (Bool.eq_false_iff.mp hconnected) nofun
  container := hcontainer
  reached hknown := absurd rfl hknown

/-- An executor with a container. -/
def routed : Executor := { container := some "router", timeout := .ofNat 5 }

/-- The arguments of a command. -/
def askQdiscs : List Text := ["-s", "qdisc"]

/-- The service cannot be reached at first, and the first run fails through it. -/
def shaky : Site where
  world :=
    { lookups := [.unavailable, .found 0, .found 1, .found 2]
      runs := [{ fate := .raises .service "gone" }, {}] }

end Executor

end CakeMonitor
