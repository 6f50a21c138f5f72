import Mathlib.Data.List.Forall2
import CakeMonitor.Proofs.Service.Moves

/-!
# What the client of an event stream sees

A stream gets its feed when it is opened, and its greeting, the latest snapshots, when its client asks for
the first time. A poll that is completed between the two is in the feed and behind the greeting. So the
client sees polls in order and none twice, unless there are such polls and it goes on after the greeting.

* `Session`: one client, the polls so far, and which of them its events come from.
* `Session.Sound`: what every move preserves; `Session.sound_step`, `Session.sound_run`.
* `Session.seen_increasing_iff`: when the polls that a client sees increase.
* `Session.exists_brings_nextEvent`: asking for the next event is a run of moves.
-/

namespace CakeMonitor

open Service (Move Event)

/-! ## Runs before a stream is opened -/

namespace Service

/-- The service after some moves. -/
def run (s : Service) (moves : List Move) : Service := moves.foldl after s

/-- The responses of the polls that some moves complete. -/
def completed (s : Service) : List Move → List Response
  | [] => []
  | m :: moves => (s.completed? m).toList ++ (s.after m).completed moves

/-- Nothing was polled yet, and no stream is open. -/
structure Fresh (s : Service) : Prop where
  latest : s.poller.latest = []
  streams : s.streams = []

/-- If there are latest snapshots, they are those of the last of these polls. -/
def LatestOf (s : Service) (polls : List Response) : Prop :=
  s.poller.latest ≠ [] → ∀ now, polls.getLast? = some (s.poller.response now)

variable {s s' : Service} {polls : List Response}

theorem latestOf_of_shows {completed : Option Response} (h : s.LatestOf polls)
    (hshows : s.poller.Shows s'.poller completed) : s'.LatestOf (polls ++ completed.toList) := by
  intro hlatest now
  cases completed with
  | some r =>
    rw [Poller.response_of_publishes hshows]
    exact List.getLast?_concat
  | none =>
    rw [Option.toList_none, List.append_nil, Poller.response_of_sameLatest hshows]
    exact h (hshows.latest ▸ hlatest) now

theorem latestOf_run (h : s.LatestOf polls) (moves : List Move) :
    (s.run moves).LatestOf (polls ++ s.completed moves) := by
  induction moves generalizing s polls with
  | nil => exact (List.append_nil polls).symm ▸ h
  | cons m moves ih =>
    rw [completed, ← List.append_assoc]
    exact ih (latestOf_of_shows h (s.shows_after m))

theorem feedsExist_run (h : s.FeedsExist) (moves : List Move) : (s.run moves).FeedsExist := by
  induction moves generalizing s with
  | nil => exact h
  | cons m moves ih => exact ih (feedsExist_after h m)

theorem Fresh.latestOf (h : s.Fresh) : s.LatestOf [] := fun hlatest => absurd h.latest hlatest

theorem Fresh.feedsExist (h : s.Fresh) : s.FeedsExist := by
  intro n stream hstream
  rw [stream?, h.streams] at hstream
  cases hstream

end Service

/-! ## Sessions -/

/-- One client of the service, from the moment its stream is opened. -/
structure Session where
  service : Service
  /-- the responses of all polls completed so far -/
  polls : List Response
  /-- how many of them were completed before the stream was opened -/
  opened : Nat
  /-- the number of the client's feed -/
  feed : Nat
  /-- the positions of the polls that wait in the feed -/
  waiting : List Nat := []
  /-- the position of the poll that the client was greeted with -/
  greeting : Option Nat := none
  /-- the positions of the polls that came out of the feed -/
  fed : List Nat := []
  /-- what the client has got -/
  events : List Response := []

namespace Session

/-- The client opens its stream after those polls. -/
def opening (s : Service) (name : Text) (polls : List Response) : Session :=
  { service := s.openStream name, polls, opened := polls.length, feed := s.poller.feeds.length }

/-- The positions of the polls that the client's events come from, in their order. -/
def seen (x : Session) : List Nat := x.greeting.toList ++ x.fed

/-- The positions of the polls that came to the feed. -/
def arrived (x : Session) : List Nat := x.fed ++ x.waiting

/-- The service moves on. A poll that it completes waits for the client if the feed takes it. -/
def proceed (x : Session) (service : Service) (completed : Option Response) : Session :=
  { x with service, polls := x.polls ++ completed.toList
           waiting := if (x.service.poller.held x.feed).length < (service.poller.held x.feed).length
             then x.waiting ++ [x.polls.length] else x.waiting }

/-- The client gets an event. A greeting comes from the last poll. -/
def receive (x : Session) : Option Event → Session
  | none => x
  | some (.greeting r) =>
    { x with greeting := some (x.polls.length - 1), events := x.events ++ [r] }
  | some (.fed r) =>
    { x with waiting := x.waiting.tail, fed := x.fed ++ x.waiting.head?.toList
             events := x.events ++ [r] }

/-- A move, and what the client of that name gets. -/
def step (name : Text) (x : Session) (m : Move) : Session :=
  (x.proceed (x.service.after m) (x.service.completed? m)).receive (x.service.event? name m)

/-- The session after some moves. -/
def run (name : Text) (x : Session) (moves : List Move) : Session := moves.foldl (step name) x

/-- The session of a client that opens its stream after some moves of a service, after some more. -/
def after (s : Service) (name : Text) (before later : List Move) : Session :=
  (opening (s.run before) name (s.completed before)).run name later

/-! ## What moves preserve -/

/-- The polls at these positions have these responses. -/
def AreAt (polls : List Response) (positions : List Nat) (rs : List Response) : Prop :=
  List.Forall₂ (fun i r => polls[i]? = some r) positions rs

/-- A session as moves leave it. -/
structure Sound (name : Text) (x : Session) : Prop where
  owns : x.service.Owns name x.feed
  latest : x.service.LatestOf x.polls
  unstarted : x.service.Unstarted name → x.seen = []
  events : AreAt x.polls x.seen x.events
  held : AreAt x.polls x.waiting (x.service.poller.held x.feed)
  /-- what came to the feed are different polls, in their order, -/
  increasing : x.arrived.Pairwise (· < ·)
  bounded : ∀ i ∈ x.arrived, i < x.polls.length
  /-- and they begin with the first after the stream was opened. -/
  first : ∀ i ∈ x.arrived.head?, i = x.opened
  untouched : x.service.poller.takes x.feed = true → x.arrived = [] → x.polls.length = x.opened

variable {name : Text} {x : Session}

theorem AreAt.append {polls : List Response} {positions : List Nat} {rs : List Response}
    (h : AreAt polls positions rs) (more : List Response) : AreAt (polls ++ more) positions rs :=
  h.imp fun i r hi => by
    rw [List.getElem?_append_left (List.getElem?_eq_some_iff.mp hi).1, hi]

theorem AreAt.concat {polls : List Response} {positions : List Nat} {rs : List Response}
    {i : Nat} {r : Response} (h : AreAt polls positions rs) (hi : polls[i]? = some r) :
    AreAt polls (positions ++ [i]) (rs ++ [r]) :=
  List.rel_append h (.cons hi .nil)

theorem sound_opening {s : Service} {polls : List Response} (hfeeds : s.FeedsExist)
    (hlatest : s.LatestOf polls) (name : Text) : (opening s name polls).Sound name where
  owns := Service.owns_openStream hfeeds name
  latest := hlatest
  unstarted _ := rfl
  events := .nil
  held := by
    show AreAt polls [] (s.poller.subscribe.held s.poller.feeds.length)
    rw [Poller.held_subscribe_length]
    exact .nil
  increasing := .nil
  bounded _ hi := nomatch hi
  first _ hi := nomatch hi
  untouched _ _ := rfl

/-! ### One move -/

variable {s' : Service} {r : Response}

/-- A move that leaves the client's feed as it was. -/
theorem proceed_of_held (h : s'.poller.held x.feed = x.service.poller.held x.feed)
    (completed : Option Response) : x.proceed s' completed
      = { x with service := s', polls := x.polls ++ completed.toList } := by
  unfold proceed
  rw [h, if_neg (lt_irrefl _)]

/-- The client is greeted. -/
theorem sound_of_greeting (h : x.Sound name) (howns : s'.Owns name x.feed)
    (hnew : x.service.Unstarted name) (hlatest : x.service.poller.latest ≠ [])
    (hpoller : s'.poller = x.service.poller) (hbegun : ¬ s'.Unstarted name) :
    ((x.proceed s' none).receive
      (some (.greeting (x.service.poller.response x.service.clock)))).Sound name := by
  obtain ⟨hgreeting, hfed⟩ := List.append_eq_nil_iff.mp (h.unstarted hnew)
  have hevents : x.events = [] := List.forall₂_nil_left_iff.mp (h.unstarted hnew ▸ h.events)
  rw [proceed_of_held (by rw [hpoller]), Option.toList_none, List.append_nil]
  refine ⟨howns, ?_, fun hnew' => absurd hnew' hbegun, ?_, ?_, h.increasing, h.bounded, h.first, ?_⟩
  · show s'.LatestOf x.polls
    rw [Service.LatestOf, hpoller]
    exact h.latest
  · show AreAt x.polls ([x.polls.length - 1] ++ x.fed) (x.events ++ [_])
    rw [hfed, hevents]
    refine .cons ?_ .nil
    rw [← List.getLast?_eq_getElem?]
    exact h.latest hlatest x.service.clock
  · show AreAt x.polls x.waiting (s'.poller.held x.feed)
    rw [hpoller]
    exact h.held
  · show s'.poller.takes x.feed = true → _
    rw [hpoller]
    exact h.untouched

/-- The client gets what has waited longest in its feed. -/
theorem sound_of_fed (h : x.Sound name) (howns : s'.Owns name x.feed) (hlatest : s'.LatestOf x.polls)
    (hheld : x.service.poller.held x.feed = r :: s'.poller.held x.feed)
    (hbegun : ¬ s'.Unstarted name) : ((x.proceed s' none).receive (some (.fed r))).Sound name := by
  have hshorter : ¬ (x.service.poller.held x.feed).length < (s'.poller.held x.feed).length := by
    rw [hheld]
    exact (Nat.lt_succ_self _).not_gt
  obtain ⟨i, rest, hi, hrest, hwaiting⟩ := List.forall₂_cons_right_iff.mp (hheld ▸ h.held)
  have hreceive : (x.proceed s' none).receive (some (.fed r))
      = { x with service := s', waiting := rest, fed := x.fed ++ [i], events := x.events ++ [r] } := by
    unfold proceed
    rw [if_neg hshorter, Option.toList_none, List.append_nil, hwaiting]
    rfl
  have harrived : x.fed ++ [i] ++ rest = x.arrived := by
    rw [arrived, hwaiting, List.append_assoc, List.singleton_append]
  rw [hreceive]
  refine ⟨howns, hlatest, fun hnew => absurd hnew hbegun, ?_, hrest, ?_, ?_, ?_, ?_⟩
  · show AreAt x.polls (x.greeting.toList ++ (x.fed ++ [i])) (x.events ++ [r])
    rw [← List.append_assoc]
    exact h.events.concat hi
  · show (x.fed ++ [i] ++ rest).Pairwise (· < ·)
    rw [harrived]
    exact h.increasing
  · show ∀ j ∈ x.fed ++ [i] ++ rest, j < x.polls.length
    rw [harrived]
    exact h.bounded
  · show ∀ j ∈ (x.fed ++ [i] ++ rest).head?, j = x.opened
    rw [harrived]
    exact h.first
  · intro _ hnone
    exact absurd (List.append_eq_nil_iff.mp hnone).1 (List.concat_ne_nil _ _)

/-- The poll went to the client's feed. -/
theorem sound_of_taken (h : x.Sound name) (howns : s'.Owns name x.feed)
    (hunstarted : s'.Unstarted name → x.service.Unstarted name)
    (hlatest : s'.LatestOf (x.polls ++ [r])) (htakes : x.service.poller.takes x.feed = true)
    (hheld : s'.poller.held x.feed = x.service.poller.held x.feed ++ [r]) :
    (x.proceed s' (some r)).Sound name := by
  have hproceed : x.proceed s' (some r) = { x with service := s', polls := x.polls ++ [r]
                                                   waiting := x.waiting ++ [x.polls.length] } := by
    unfold proceed
    rw [hheld, if_pos (List.length_append ▸ Nat.lt_succ_self _)]
    rfl
  have harrived : (x.proceed s' (some r)).arrived = x.arrived ++ [x.polls.length] := by
    rw [hproceed]
    exact (List.append_assoc x.fed x.waiting _).symm
  rw [hproceed] at harrived ⊢
  refine ⟨howns, hlatest, fun hnew => h.unstarted (hunstarted hnew),
    h.events.append [r], ?_, ?_, ?_, ?_, ?_⟩
  · rw [hheld]
    exact (h.held.append [r]).concat List.getElem?_concat_length
  · rw [harrived, List.pairwise_append]
    refine ⟨h.increasing, List.pairwise_singleton _ _, ?_⟩
    intro i hi j hj
    rw [List.mem_singleton.mp hj]
    exact h.bounded i hi
  · intro i hi
    rw [harrived, List.mem_append, List.mem_singleton] at hi
    rw [List.length_append]
    obtain hi | rfl := hi
    · exact (h.bounded i hi).trans (Nat.lt_succ_self _)
    · exact Nat.lt_succ_self _
  · intro i hi
    rw [harrived] at hi
    cases hbefore : x.arrived with
    | nil =>
      -- the feed missed none before, so this is the first poll since it was opened
      rw [hbefore] at hi
      obtain rfl := Option.some.inj hi
      exact h.untouched htakes hbefore
    | cons first rest =>
      rw [hbefore] at hi
      exact h.first i (hbefore ▸ hi)
  · intro _ hnone
    rw [harrived] at hnone
    exact absurd hnone (List.concat_ne_nil _ _)

/-- The poll did not go to the client's feed: it is full, or the client has left. -/
theorem sound_of_missed (h : x.Sound name) (howns : s'.Owns name x.feed)
    (hunstarted : s'.Unstarted name → x.service.Unstarted name)
    (hlatest : s'.LatestOf (x.polls ++ [r]))
    (hpublishes : x.service.poller.Publishes r s'.poller)
    (hfull : x.service.poller.takes x.feed = true →
      Feed.capacity ≤ (x.service.poller.held x.feed).length)
    (hheld : s'.poller.held x.feed = x.service.poller.held x.feed) :
    (x.proceed s' (some r)).Sound name := by
  rw [proceed_of_held hheld]
  refine ⟨howns, hlatest, fun hnew => h.unstarted (hunstarted hnew),
    h.events.append [r], ?_, h.increasing, ?_, h.first, ?_⟩
  · rw [hheld]
    exact h.held.append [r]
  · intro i hi
    exact (h.bounded i hi).trans_le (List.length_append ▸ Nat.le_add_right _ _)
  · -- a feed that is still subscribed and misses a poll is full, so something has arrived
    intro htakes hnone
    rw [Poller.takes_of_publishes hpublishes] at htakes
    have hwaiting : x.waiting = [] := (List.append_eq_nil_iff.mp hnone).2
    have hlength := List.Forall₂.length_eq h.held
    rw [hwaiting, List.length_nil] at hlength
    exact absurd (hlength ▸ hfull htakes) (by decide)

theorem sound_of_notices {completed : Option Response} {event : Option Event} (h : x.Sound name)
    (howns : s'.Owns name x.feed) (hunstarted : s'.Unstarted name → x.service.Unstarted name)
    (hshows : x.service.poller.Shows s'.poller completed)
    (hnotices : Service.Notices name x.feed x.service s' completed event) :
    ((x.proceed s' completed).receive event).Sound name := by
  have hlatest := Service.latestOf_of_shows h.latest hshows
  have hlatest_of_none (hnone : completed = none) : s'.LatestOf x.polls := by
    rwa [hnone, Option.toList_none, List.append_nil] at hlatest
  cases hnotices with
  | poll hpublishes =>
    have hheld := Poller.held_of_publishes hpublishes x.feed
    split at hheld
    · rename_i htaken
      rw [Bool.and_eq_true] at htaken
      exact sound_of_taken h howns hunstarted hlatest htaken.1 hheld
    · rename_i hmissed
      refine sound_of_missed h howns hunstarted hlatest hpublishes ?_ hheld
      intro htakes
      rw [htakes, Bool.true_and, decide_eq_true_eq] at hmissed
      exact Nat.not_lt.mp hmissed
  | greeting hnew hsome hpoller hbegun =>
    exact sound_of_greeting h howns hnew hsome hpoller hbegun
  | fed hheld hbegun =>
    exact sound_of_fed h howns (hlatest_of_none rfl) hheld hbegun
  | nothing hheld htakes =>
    rw [proceed_of_held hheld, Option.toList_none, List.append_nil]
    exact ⟨howns, hlatest_of_none rfl, fun hnew => h.unstarted (hunstarted hnew), h.events,
      hheld.symm ▸ h.held, h.increasing, h.bounded, h.first,
      fun hstill => h.untouched (htakes hstill)⟩

theorem sound_step (h : x.Sound name) {m : Move} (hm : m ≠ .openStream name) :
    (x.step name m).Sound name :=
  sound_of_notices h (Service.owns_after h.owns hm) (Service.unstarted_of_unstarted_after hm)
    (x.service.shows_after m) (Service.notices_after h.owns m)

theorem sound_run (h : x.Sound name) {moves : List Move} (hmoves : .openStream name ∉ moves) :
    (x.run name moves).Sound name := by
  induction moves generalizing x with
  | nil => exact h
  | cons m moves ih =>
    obtain ⟨hm, hmoves⟩ := List.ne_and_not_mem_of_not_mem_cons hmoves
    exact ih (sound_step h hm.symm) hmoves

/-! ## What a client sees -/

theorem sound_after {s : Service} (hfresh : s.Fresh) {later : List Move}
    (hlater : .openStream name ∉ later) (before : List Move) :
    (after s name before later).Sound name :=
  sound_run (sound_opening (Service.feedsExist_run hfresh.feedsExist before)
    (Service.latestOf_run hfresh.latestOf before) name) hlater

/-- No poll that was completed after the stream was opened is behind the greeting. -/
def GreetedAtOnce (x : Session) : Prop := ∀ i ∈ x.greeting, i < x.opened

theorem opened_le_of_mem_fed (h : x.Sound name) {i : Nat} (hi : i ∈ x.fed) : x.opened ≤ i := by
  have harrived : i ∈ x.arrived := List.mem_append_left _ hi
  have hfirst := h.first
  have hincreasing := h.increasing
  cases hx : x.arrived with
  | nil => rw [hx] at harrived; cases harrived
  | cons first rest =>
    rw [hx] at harrived hfirst hincreasing
    obtain rfl := hfirst first rfl
    obtain rfl | hrest := List.mem_cons.mp harrived
    · exact le_rfl
    · exact ((List.pairwise_cons.mp hincreasing).1 i hrest).le

/-- What comes out of the feed begins with the first poll after the stream was opened. -/
theorem head_fed (h : x.Sound name) {first : Nat} {rest : List Nat} (hfed : x.fed = first :: rest) :
    first = x.opened :=
  h.first first (by rw [arrived, hfed]; rfl)

theorem increasing_iff (h : x.Sound name) :
    x.seen.Pairwise (· < ·) ↔ x.GreetedAtOnce ∨ x.seen.length ≤ 1 := by
  have hfed : x.fed.Pairwise (· < ·) := (List.pairwise_append.mp h.increasing).1
  unfold GreetedAtOnce seen
  cases x.greeting with
  | none => exact iff_of_true hfed (Or.inl nofun)
  | some i =>
    rw [Option.toList_some, List.singleton_append, List.pairwise_cons]
    constructor
    · rintro ⟨hbehind, -⟩
      cases hx : x.fed with
      | nil => exact Or.inr le_rfl
      | cons first rest =>
        -- behind the greeting comes the first poll after the opening
        refine Or.inl fun j hj => ?_
        obtain rfl := Option.some.inj hj
        rw [← head_fed h hx]
        exact hbehind first (hx ▸ List.mem_cons_self)
    · rintro (honce | hone)
      · refine ⟨fun j hj => ?_, hfed⟩
        exact (honce i rfl).trans_le (opened_le_of_mem_fed h hj)
      · rw [List.length_eq_zero_iff.mp (Nat.le_zero.mp (Nat.le_of_succ_le_succ hone))]
        exact ⟨nofun, .nil⟩

/-- **What a client sees**: each event is the response of the poll that it comes from, and these polls
increase exactly if the client is greeted before another poll is completed, or gets no second event. -/
theorem seen_increasing_iff (s : Service) (hfresh : s.Fresh) (name : Text) (before later : List Move)
    (hlater : .openStream name ∉ later) :
    AreAt (after s name before later).polls (after s name before later).seen
        (after s name before later).events ∧
      ((after s name before later).seen.Pairwise (· < ·)
        ↔ (after s name before later).GreetedAtOnce ∨ (after s name before later).seen.length ≤ 1) :=
  have h := sound_after hfresh hlater before
  ⟨h.events, increasing_iff h⟩

/-- A service whose program reports a counter of 1 first, and then of 2. -/
def counting : Service :=
  { Service.idle with
    site := { world := { runs := [{ out := Service.sentReport ("1" : Text) },
      { out := Service.sentReport ("2" : Text) }] } } }

/-- A client that is greeted at once gets the poll before and the one behind. -/
theorem seen_increasing_iff_counting :
    let later : List Move := [.ask ("c" : Text), .poll 1000, .look ("c" : Text) true]
    let x := after counting ("c" : Text) [.poll 0] later
    counting.Fresh ∧ .openStream ("c" : Text) ∉ later ∧ x.seen = [0, 1] ∧
      AreAt x.polls x.seen x.events ∧ x.seen.Pairwise (· < ·) := by
  intro later x
  have hfresh : counting.Fresh := ⟨rfl, rfl⟩
  have hlater : .openStream ("c" : Text) ∉ later := by decide
  obtain ⟨hevents, hincreasing⟩ := seen_increasing_iff counting hfresh ("c" : Text) [.poll 0] later hlater
  have honce : x.GreetedAtOnce := by
    unfold GreetedAtOnce
    decide +kernel
  exact ⟨hfresh, hlater, by decide +kernel, hevents, hincreasing.mpr (Or.inl honce)⟩

/-- With a poll between the two, the client gets that poll twice. -/
theorem counting_seen_twice :
    let x := after counting ("c" : Text) [.poll 0]
      [.poll 1000, .ask ("c" : Text), .look ("c" : Text) true]
    x.polls.Nodup ∧ x.seen = [1, 1] ∧ (∃ r, x.polls[1]? = some r ∧ x.events = [r, r]) ∧
      ¬ x.seen.Pairwise (· < ·) := by
  decide +kernel

/-! ## Asking for the next event -/

theorem service_step (x : Session) (name : Text) (m : Move) :
    (x.step name m).service = x.service.after m := by
  unfold step
  rcases x.service.event? name m with _ | ⟨r | r⟩ <;> rfl

theorem events_step (x : Session) (name : Text) (m : Move) :
    (x.step name m).events = x.events ++ ((x.service.event? name m).map Event.response).toList := by
  unfold step
  rcases x.service.event? name m with _ | ⟨r | r⟩
  · exact (List.append_nil _).symm
  · rfl
  · rfl

theorem events_ask (x : Session) (name : Text) :
    (x.step name (.ask name)).events = x.events ++ (x.service.ask name).2.toList := by
  rw [events_step, Service.event?, if_pos rfl]
  cases (x.service.ask name).2 <;> rfl

theorem events_look (x : Session) (name : Text) (stays : Bool) :
    (x.step name (.look name stays)).events
      = x.events ++ (x.service.look name stays).2.toList := by
  rw [events_step, Service.event?, if_pos rfl]
  cases (x.service.look name stays).2 <;> rfl

/-- These moves lead to that service, and bring the client that event and no other. -/
structure Brings (name : Text) (x : Session) (moves : List Move)
    (result : Service × Option Response) : Prop where
  stays : .openStream name ∉ moves
  service : (x.run name moves).service = result.1
  events : (x.run name moves).events = x.events ++ result.2.toList

/-- A first move without an event. -/
theorem Brings.cons {m : Move} {moves : List Move} {result : Service × Option Response}
    (h : (x.step name m).Brings name moves result) (hm : m ≠ .openStream name)
    (hevents : (x.step name m).events = x.events) : x.Brings name (m :: moves) result where
  stays := List.not_mem_cons_of_ne_of_not_mem hm.symm h.stays
  service := h.service
  events := h.events.trans (congrArg (· ++ result.2.toList) hevents)

theorem brings_look (x : Session) (name : Text) (stays : Bool) :
    x.Brings name [.look name stays] (x.service.look name stays) where
  stays := by simp
  service := x.service_step name (.look name stays)
  events := x.events_look name stays

theorem exists_brings_await (x : Session) (name : Text) (checks : Nat) :
    ∃ moves, x.Brings name moves (Service.await name checks x.service) := by
  induction checks generalizing x with
  | zero => exact ⟨_, x.brings_look name false⟩
  | succ checks ih =>
    have hbrings := x.brings_look name true
    unfold Service.await
    rcases hlook : x.service.look name true with ⟨s, _ | r⟩
    · rw [hlook] at hbrings
      obtain ⟨moves, hmoves⟩ := ih (x.step name (.look name true))
      rw [show (x.step name (.look name true)).service = s from hbrings.service] at hmoves
      exact ⟨_, hmoves.cons nofun (hbrings.events.trans (List.append_nil _))⟩
    · rw [hlook] at hbrings
      exact ⟨_, hbrings⟩

/-- **A client that asks for its next event makes such moves**: it asks, and then looks until there is a
response or it leaves. -/
theorem exists_brings_nextEvent (x : Session) (name : Text) (checks : Nat) :
    ∃ moves, x.Brings name moves (x.service.nextEvent name checks) := by
  have hbrings : x.Brings name [.ask name] (x.service.ask name) :=
    ⟨by simp, x.service_step name (.ask name), x.events_ask name⟩
  unfold Service.nextEvent
  rcases hask : x.service.ask name with ⟨s, _ | r⟩
  · rw [hask] at hbrings
    obtain ⟨moves, hmoves⟩ := (x.step name (.ask name)).exists_brings_await name checks
    rw [show (x.step name (.ask name)).service = s from hbrings.service] at hmoves
    exact ⟨_, hmoves.cons nofun (hbrings.events.trans (List.append_nil _))⟩
  · rw [hask] at hbrings
    exact ⟨_, hbrings⟩

end Session

end CakeMonitor
