import CakeMonitor.Proofs.Service.Loop

/-!
# Moves of the service, and what one client notices

Polls, cycles of the loop and what the clients of event streams do are the moves of the service. A client
has a feed of its own, and of each move it notices little: a poll is published, it gets an event, or there
is nothing new.

* `Service.Move`, `Service.after`: the moves.
* `Service.completed?`, `Service.event?`: the poll that a move completes, and the event it brings.
* `Service.Owns`: which feed is a client's; `Service.owns_after`.
* `Service.Notices`: all that a move can mean for a client; `Service.notices_after`.
-/

namespace CakeMonitor

/-! ## Feeds -/

namespace Poller

/-- Whether the feed of that number is subscribed. -/
def takes (p : Poller) (n : Nat) : Bool := (p.feeds[n]?.map (·.subscribed)).getD false

/-- What a completed poll shows to streams: it goes to all feeds and is the latest. -/
structure Publishes (r : Response) (p p' : Poller) : Prop where
  latest : p'.latest = r.interfaces
  lastSuccess : p'.lastSuccess = some r.updatedAt
  feeds : p'.feeds = p.feeds.map (Feed.offer r)

/-- The latest snapshots stay, with their time. -/
structure SameLatest (p p' : Poller) : Prop where
  latest : p'.latest = p.latest
  lastSuccess : p'.lastSuccess = p.lastSuccess

/-- What becomes of the latest snapshots, with the response of a completed poll or without one. -/
def Shows (p p' : Poller) : Option Response → Prop
  | some r => p.Publishes r p'
  | none => p.SameLatest p'

variable {p p' : Poller} {r : Response}

theorem response_of_publishes (h : p.Publishes r p') (now : Timestamp) : p'.response now = r := by
  rw [response, h.latest, h.lastSuccess]
  rfl

theorem response_of_sameLatest (h : p.SameLatest p') (now : Timestamp) :
    p'.response now = p.response now := by
  rw [response, h.latest, h.lastSuccess, response]

theorem held_of_publishes (h : p.Publishes r p') (n : Nat) : p'.held n =
    if p.takes n && (p.held n).length < Feed.capacity then p.held n ++ [r] else p.held n := by
  unfold held takes
  rw [h.feeds, List.getElem?_map]
  cases p.feeds[n]? with
  | none => rfl
  | some f =>
    unfold Feed.offer
    simp only [Option.map_some, Option.getD_some]
    split <;> rfl

theorem takes_of_publishes (h : p.Publishes r p') (n : Nat) : p'.takes n = p.takes n := by
  unfold takes
  rw [h.feeds, List.getElem?_map]
  cases p.feeds[n]? with
  | none => rfl
  | some f =>
    unfold Feed.offer
    simp only [Option.map_some, Option.getD_some]
    split <;> rfl

theorem length_feeds_of_publishes (h : p.Publishes r p') : p'.feeds.length = p.feeds.length := by
  rw [h.feeds, List.length_map]

theorem held_drop (p : Poller) (n count k : Nat) :
    (p.drop n count).held k = if n = k then (p.held k).drop count else p.held k := by
  unfold drop updateFeed held
  rw [List.getElem?_modify]
  split
  · cases p.feeds[k]? with
    | none => exact List.drop_nil.symm
    | some f => rfl
  · cases p.feeds[k]? <;> rfl

theorem takes_drop (p : Poller) (n count k : Nat) : (p.drop n count).takes k = p.takes k := by
  unfold drop updateFeed takes
  rw [List.getElem?_modify]
  split
  · cases p.feeds[k]? <;> rfl
  · cases p.feeds[k]? <;> rfl

theorem held_unsubscribe (p : Poller) (n k : Nat) : (p.unsubscribe n).held k = p.held k := by
  unfold unsubscribe updateFeed held
  rw [List.getElem?_modify]
  split
  · cases p.feeds[k]? <;> rfl
  · cases p.feeds[k]? <;> rfl

theorem takes_of_takes_unsubscribe {n k : Nat} (h : (p.unsubscribe n).takes k = true) :
    p.takes k = true := by
  unfold unsubscribe updateFeed takes at h
  unfold takes
  rw [List.getElem?_modify] at h
  split at h
  · cases hfeed : p.feeds[k]? with
    | none => rw [hfeed] at h; exact h
    | some f => rw [hfeed] at h; cases h
  · cases hfeed : p.feeds[k]? with
    | none => rw [hfeed] at h; exact h
    | some f => rw [hfeed] at h; exact h

theorem held_subscribe {n : Nat} (h : n < p.feeds.length) : p.subscribe.held n = p.held n := by
  unfold subscribe held
  rw [List.getElem?_append_left h]

theorem takes_subscribe {n : Nat} (h : n < p.feeds.length) : p.subscribe.takes n = p.takes n := by
  unfold subscribe takes
  rw [List.getElem?_append_left h]

theorem held_subscribe_length (p : Poller) : p.subscribe.held p.feeds.length = [] := by
  unfold subscribe held
  rw [List.getElem?_concat_length]
  rfl

theorem length_feeds_subscribe (p : Poller) : p.subscribe.feeds.length = p.feeds.length + 1 :=
  List.length_append

theorem length_feeds_updateFeed (p : Poller) (n : Nat) (f : Feed → Feed) :
    (p.updateFeed n f).feeds.length = p.feeds.length := List.length_modify ..

/-! ### Polls -/

/-- The response that a poll ends with, if it is completed. -/
def published? (taken : Poller × PollResult) (now : Timestamp) : Option Response :=
  if taken.2 = .completed then some (taken.1.response now) else none

/-- A completed poll is published. -/
theorem shows_take (p : Poller) (now : Timestamp) (stats : Except Failure (List Snapshot)) :
    p.Shows (p.take now stats).1 (published? (p.take now stats) now) := by
  unfold take
  split
  · exact ⟨rfl, rfl⟩
  · exact ⟨rfl, rfl⟩
  · split
    · exact ⟨rfl, rfl⟩
    · split
      · exact ⟨rfl, rfl⟩
      · exact ⟨rfl, rfl, rfl⟩

/-- Any other poll leaves the feeds alone. -/
theorem feeds_take {now : Timestamp} {stats : Except Failure (List Snapshot)}
    (h : published? (p.take now stats) now = none) : (p.take now stats).1.feeds = p.feeds := by
  unfold take at h ⊢
  split
  · rfl
  · rfl
  · split
    · rfl
    · split
      · rfl
      · simp [published?, *] at h

theorem length_feeds_take (p : Poller) (now : Timestamp) (stats : Except Failure (List Snapshot)) :
    (p.take now stats).1.feeds.length = p.feeds.length := by
  cases hpublished : published? (p.take now stats) now with
  | none => rw [feeds_take hpublished]
  | some r =>
    have hshows := p.shows_take now stats
    rw [hpublished] at hshows
    exact length_feeds_of_publishes hshows

end Poller

namespace Service

/-! ## Moves -/

/-- All that can happen to polls and streams between two moments. A question for the next event is not one
move: polls may be completed between the question and the looks. -/
inductive Move where
  | poll (t : Timestamp)
  /-- a cycle of the loop -/
  | tick (t : Timestamp)
  | start
  | stop
  | openStream (name : Text)
  | ask (name : Text)
  | look (name : Text) (stays : Bool)
  | closeStream (name : Text)
  deriving DecidableEq

/-- An event of a stream. -/
inductive Event where
  /-- the latest snapshots, at the beginning of a stream -/
  | greeting (r : Response)
  /-- a response out of the feed -/
  | fed (r : Response)

/-- What an event delivers. -/
def Event.response : Event → Response
  | .greeting r => r
  | .fed r => r

/-- The service after a move. -/
def after (s : Service) : Move → Service
  | .poll t => { s with clock := t }.poll.1
  | .tick t => s.tick t
  | .start => s.start 0
  | .stop => s.stop
  | .openStream name => s.openStream name
  | .ask name => (s.ask name).1
  | .look name stays => (s.look name stays).1
  | .closeStream name => s.closeStream name

/-- The response of a poll at that time, if it is completed. -/
def polled? (s : Service) (t : Timestamp) : Option Response :=
  Poller.published? (s.poller.take t (s.collected t).1) t

/-- The response of the poll that a move completes, if it does. -/
def completed? (s : Service) : Move → Option Response
  | .poll t => s.polled? t
  | .tick t => if s.isRunning then s.polled? t else none
  | _ => none

/-- The event that a move brings to the client of that name, if it does. -/
def event? (s : Service) (name : Text) : Move → Option Event
  | .ask n => if n = name then (s.ask n).2.map .greeting else none
  | .look n stays => if n = name then (s.look n stays).2.map .fed else none
  | _ => none

/-- The stream of that name, if it is open. -/
def stream? (s : Service) (name : Text) : Option EventStream := named? name s.streams

/-- The stream of that name was opened and has not begun. -/
def Unstarted (s : Service) (name : Text) : Prop :=
  ∃ stream, s.stream? name = some stream ∧ stream.started = false

variable {s s' : Service} {name n : Text}

/-! ### Streams -/

theorem named?_cons {α : Type} (name : Text) (e : Text × α) (entries : List (Text × α)) :
    named? name (e :: entries) = if e.1 = name then some e.2 else named? name entries := by
  unfold named?
  split
  · simp [*]
  · simp [*]

theorem named?_filter {α : Type} (name n : Text) (entries : List (Text × α)) :
    named? name (entries.filter fun e => e.1 ≠ n) = if n = name then none else named? name entries := by
  unfold named?
  rw [List.find?_filter]
  split
  · rename_i heq
    subst heq
    rw [Option.map_eq_none_iff, List.find?_eq_none]
    simp
  · rename_i hne
    -- an entry of that name passes the filter
    congr 2
    funext e
    by_cases he : e.1 = name
    · simp [he, Ne.symm hne]
    · simp [he]

theorem streams_tick (s : Service) (t : Timestamp) : (s.tick t).streams = s.streams := by
  have hpoll : { s with clock := t }.poll.1.streams = s.streams := rfl
  unfold tick
  split
  · unfold cycle
    rcases hresult : { s with clock := t }.poll with ⟨s₁, result⟩
    rw [hresult] at hpoll ⊢
    cases result <;> exact hpoll
  · rfl

theorem start_keeps (s : Service) : (s.start 0).streams = s.streams ∧ (s.start 0).poller = s.poller := by
  unfold start
  split
  · exact ⟨rfl, rfl⟩
  · exact ⟨rfl, rfl⟩

theorem stream?_openStream (s : Service) (n name : Text) : (s.openStream n).stream? name =
    if n = name then some { feed := s.poller.feeds.length } else s.stream? name :=
  named?_cons name (n, _) s.streams

theorem ask_of_closed (h : s.stream? n = none) : s.ask n = (s, none) := by
  unfold stream? at h
  unfold ask
  rw [h]

/-- The stream has begun. -/
def beginStream (s : Service) (name : Text) (stream : EventStream) : Service :=
  { s with streams := (name, { stream with started := true }) :: (s.removeStream name).streams }

theorem ask_of_open {stream : EventStream} (h : s.stream? n = some stream) :
    s.ask n = (s.beginStream n stream,
      if !stream.started && s.poller.latest ≠ [] then some (s.poller.response s.clock) else none) := by
  unfold stream? at h
  unfold ask
  rw [h]
  rfl

theorem stream?_beginStream (s : Service) (n name : Text) (stream : EventStream) :
    (s.beginStream n stream).stream? name =
      if n = name then some { stream with started := true } else s.stream? name := by
  unfold stream? beginStream removeStream
  rw [named?_cons, named?_filter]
  split <;> rfl

/-- **What a first or later question does**: a stream that has not begun greets its client, if there is
something to greet with; any other question is not answered yet. -/
theorem ask_cases (s : Service) (n : Text) : (s.ask n).1.poller = s.poller ∧
    ((s.ask n).2 = none ∨ s.Unstarted n ∧ s.poller.latest ≠ [] ∧ ¬ (s.ask n).1.Unstarted n ∧
      (s.ask n).2 = some (s.poller.response s.clock)) := by
  cases hstream : s.stream? n with
  | none =>
    rw [ask_of_closed hstream]
    exact ⟨rfl, Or.inl rfl⟩
  | some stream =>
    rw [ask_of_open hstream]
    refine ⟨rfl, ?_⟩
    split
    · rename_i hgreets
      rw [Bool.and_eq_true, decide_eq_true_eq, Bool.not_eq_true'] at hgreets
      refine Or.inr ⟨⟨stream, hstream, hgreets.1⟩, hgreets.2, ?_, rfl⟩
      rintro ⟨stream', hbegun, hnew⟩
      rw [stream?_beginStream, if_pos rfl] at hbegun
      obtain rfl := Option.some.inj hbegun
      cases hnew
    · exact Or.inl rfl

/-- **What closing a stream does**: the stream is gone, and at most a feed unsubscribed. -/
theorem closeStream_cases (s : Service) (n : Text) :
    (s.stream? n = none ∧ s.closeStream n = s) ∨
      (s.closeStream n).streams = (s.removeStream n).streams ∧
        ((s.closeStream n).poller = s.poller ∨
          ∃ k, (s.closeStream n).poller = s.poller.unsubscribe k) := by
  unfold closeStream stream?
  cases named? n s.streams with
  | none => exact Or.inl ⟨rfl, rfl⟩
  | some stream =>
    dsimp only
    split
    · exact Or.inr ⟨rfl, Or.inr ⟨_, rfl⟩⟩
    · exact Or.inr ⟨rfl, Or.inl rfl⟩

theorem stream?_closeStream (s : Service) (n name : Text) : (s.closeStream n).stream? name =
    if n = name then none else s.stream? name := by
  obtain ⟨hnone, hsame⟩ | ⟨hstreams, -⟩ := s.closeStream_cases n
  · rw [hsame]
    split
    · rename_i heq
      rw [← heq, hnone]
    · rfl
  · unfold stream?
    rw [hstreams]
    exact named?_filter name n s.streams

/-- **What a look does**: nothing, or the client has left, or it gets the oldest response of the feed. -/
theorem look_cases (s : Service) (n : Text) (stays : Bool) :
    s.look n stays = (s, none) ∨ s.look n stays = (s.closeStream n, none) ∨
      ∃ stream r, s.stream? n = some stream ∧ stream.started = true ∧
        (s.poller.held stream.feed).head? = some r ∧
        s.look n stays = ({ s with poller := s.poller.drop stream.feed 1 }, some r) := by
  unfold look
  cases hstream : named? n s.streams with
  | none => exact Or.inl rfl
  | some stream =>
    dsimp only
    split
    · exact Or.inl rfl
    · rename_i hstarted
      split
      · exact Or.inr (Or.inl rfl)
      · split
        · exact Or.inl rfl
        · rename_i r held hheld
          refine Or.inr (Or.inr ⟨stream, r, hstream, ?_, ?_, rfl⟩)
          · simpa using hstarted
          · rw [hheld]
            rfl

/-- A stream that is open after a move was open before it with the same feed, and no less begun, or the
move opened it with a new one. -/
theorem stream?_after {m : Move} {stream' : EventStream} (h : (s.after m).stream? n = some stream') :
    (∃ stream, s.stream? n = some stream ∧ stream'.feed = stream.feed ∧
        (stream.started = true → stream'.started = true)) ∨
      m = .openStream n ∧ stream'.feed = s.poller.feeds.length := by
  have hkept (h : s.stream? n = some stream') : ∃ stream, s.stream? n = some stream ∧
      stream'.feed = stream.feed ∧ (stream.started = true → stream'.started = true) :=
    ⟨stream', h, rfl, id⟩
  cases m with
  | poll t => exact Or.inl (hkept h)
  | tick t =>
    have hstreams : (s.after (.tick t)).stream? n = s.stream? n := congrArg (named? n) (streams_tick s t)
    exact Or.inl (hkept (hstreams ▸ h))
  | start =>
    have hstreams : (s.after .start).stream? n = s.stream? n :=
      congrArg (named? n) (start_keeps s).1
    exact Or.inl (hkept (hstreams ▸ h))
  | stop => exact Or.inl (hkept h)
  | openStream k =>
    have hstreams := s.stream?_openStream k n
    split at hstreams
    · rename_i heq
      subst heq
      obtain rfl := Option.some.inj (h.symm.trans hstreams)
      exact Or.inr ⟨rfl, rfl⟩
    · exact Or.inl (hkept (hstreams ▸ h))
  | ask k =>
    change (s.ask k).1.stream? n = some stream' at h
    cases hk : s.stream? k with
    | none =>
      rw [ask_of_closed hk] at h
      exact Or.inl (hkept h)
    | some stream =>
      rw [ask_of_open hk, stream?_beginStream] at h
      split at h
      · rename_i heq
        subst heq
        obtain rfl := Option.some.inj h
        exact Or.inl ⟨stream, hk, rfl, fun _ => rfl⟩
      · exact Or.inl (hkept h)
  | look k stays =>
    change (s.look k stays).1.stream? n = some stream' at h
    obtain hlook | hlook | ⟨_, _, -, -, -, hlook⟩ := s.look_cases k stays
    · rw [hlook] at h
      exact Or.inl (hkept h)
    · rw [hlook, stream?_closeStream] at h
      split at h
      · cases h
      · exact Or.inl (hkept h)
    · rw [hlook] at h
      exact Or.inl (hkept h)
  | closeStream k =>
    change (s.closeStream k).stream? n = some stream' at h
    rw [stream?_closeStream] at h
    split at h
    · cases h
    · exact Or.inl (hkept h)

/-! ### The poller -/

/-- When a move polls, if it does: a cycle of the loop does so while the loop runs. -/
def pollsAt? (s : Service) : Move → Option Timestamp
  | .poll t => some t
  | .tick t => if s.isRunning then some t else none
  | _ => none

theorem poller_after_poll {m : Move} {t : Timestamp} (h : s.pollsAt? m = some t) :
    (s.after m).poller = (s.poller.take t (s.collected t).1).1 ∧ s.completed? m = s.polled? t := by
  cases m with
  | poll u =>
    obtain rfl := Option.some.inj h
    exact ⟨rfl, rfl⟩
  | tick u =>
    unfold pollsAt? at h
    split_ifs at h with hrun
    obtain rfl := Option.some.inj h
    exact ⟨(tick_of_running hrun).2.1, if_pos hrun⟩
  | _ => cases h

theorem poller_closeStream (s : Service) (n : Text) : (s.closeStream n).poller = s.poller ∨
    ∃ k f, (s.closeStream n).poller = s.poller.updateFeed k f := by
  obtain ⟨-, hsame⟩ | ⟨-, hsame | ⟨k, hunsubscribe⟩⟩ := s.closeStream_cases n
  · exact Or.inl (congrArg Service.poller hsame)
  · exact Or.inl hsame
  · exact Or.inr ⟨k, _, hunsubscribe⟩

/-- A move without a poll changes at most the feeds. -/
theorem poller_after_other {m : Move} (h : s.pollsAt? m = none) :
    s.completed? m = none ∧ ((s.after m).poller = s.poller ∨
      (s.after m).poller = s.poller.subscribe ∨
      ∃ k f, (s.after m).poller = s.poller.updateFeed k f) := by
  cases m with
  | poll t => cases h
  | tick t =>
    have hrun : s.isRunning = false := by
      unfold pollsAt? at h
      split_ifs at h with hrun
      exact Bool.not_eq_true _ ▸ hrun
    exact ⟨if_neg (Bool.not_eq_true _ ▸ hrun),
      Or.inl (congrArg Service.poller (tick_of_not_running hrun t))⟩
  | start => exact ⟨rfl, Or.inl (start_keeps s).2⟩
  | stop => exact ⟨rfl, Or.inl rfl⟩
  | openStream n => exact ⟨rfl, Or.inr (Or.inl rfl)⟩
  | ask n => exact ⟨rfl, Or.inl (s.ask_cases n).1⟩
  | look n stays =>
    refine ⟨rfl, ?_⟩
    show (s.look n stays).1.poller = _ ∨ (s.look n stays).1.poller = _ ∨
      ∃ k f, (s.look n stays).1.poller = s.poller.updateFeed k f
    obtain hlook | hlook | ⟨_, _, -, -, -, hlook⟩ := s.look_cases n stays
    · rw [hlook]
      exact Or.inl rfl
    · rw [hlook]
      exact (s.poller_closeStream n).imp_right Or.inr
    · rw [hlook]
      exact Or.inr (Or.inr ⟨_, _, rfl⟩)
  | closeStream n => exact ⟨rfl, (s.poller_closeStream n).imp_right Or.inr⟩

/-- **What a move does to the poller**: it is a poll, or changes at most the feeds. -/
theorem poller_after (s : Service) (m : Move) :
    (∃ t, (s.after m).poller = (s.poller.take t (s.collected t).1).1 ∧
        s.completed? m = s.polled? t) ∨
      s.completed? m = none ∧ ((s.after m).poller = s.poller ∨
        (s.after m).poller = s.poller.subscribe ∨
        ∃ k f, (s.after m).poller = s.poller.updateFeed k f) := by
  cases hpolls : s.pollsAt? m with
  | some t => exact Or.inl ⟨t, poller_after_poll hpolls⟩
  | none => exact Or.inr (poller_after_other hpolls)

/-- The latest snapshots become those of a completed poll, and stay in any other move. -/
theorem shows_after (s : Service) (m : Move) :
    s.poller.Shows (s.after m).poller (s.completed? m) := by
  obtain ⟨t, hpoller, hcompleted⟩ | ⟨hnone, hpoller | hpoller | ⟨k, f, hpoller⟩⟩ := s.poller_after m
  · rw [hpoller, hcompleted]
    exact s.poller.shows_take t (s.collected t).1
  all_goals
    rw [hpoller, hnone]
    exact ⟨rfl, rfl⟩

theorem length_feeds_le_after (s : Service) (m : Move) :
    s.poller.feeds.length ≤ (s.after m).poller.feeds.length := by
  obtain ⟨t, hpoller, -⟩ | ⟨-, hpoller | hpoller | ⟨k, f, hpoller⟩⟩ := s.poller_after m
  · rw [hpoller, Poller.length_feeds_take]
  · rw [hpoller]
  · rw [hpoller, Poller.length_feeds_subscribe]
    exact Nat.le_succ _
  · rw [hpoller, Poller.length_feeds_updateFeed]

/-! ### What one client notices -/

/-- The feed is that of the client of that name, and of no other. -/
structure Owns (s : Service) (name : Text) (feed : Nat) : Prop where
  bound : feed < s.poller.feeds.length
  stream : ∀ n stream, s.stream? n = some stream → (n = name ↔ stream.feed = feed)

/-- The feeds of all open streams exist. -/
def FeedsExist (s : Service) : Prop :=
  ∀ n stream, s.stream? n = some stream → stream.feed < s.poller.feeds.length

/-- All that a move can mean for the client of that name with that feed: the response of the poll that it
completes, and the event that it brings. -/
inductive Notices (name : Text) (feed : Nat) (s s' : Service) : Option Response → Option Event → Prop
  | poll {r : Response} (publishes : s.poller.Publishes r s'.poller) :
      Notices name feed s s' (some r) none
  | greeting (unstarted : s.Unstarted name) (latest : s.poller.latest ≠ [])
      (poller : s'.poller = s.poller) (begun : ¬ s'.Unstarted name) :
      Notices name feed s s' none (some (.greeting (s.poller.response s.clock)))
  | fed {r : Response} (held : s.poller.held feed = r :: s'.poller.held feed)
      (begun : ¬ s'.Unstarted name) : Notices name feed s s' none (some (.fed r))
  | nothing (held : s'.poller.held feed = s.poller.held feed)
      (takes : s'.poller.takes feed = true → s.poller.takes feed = true) :
      Notices name feed s s' none none

theorem unstarted_of_unstarted_after {m : Move} (hm : m ≠ .openStream name)
    (h : (s.after m).Unstarted name) : s.Unstarted name := by
  obtain ⟨stream', hstream', hnew⟩ := h
  obtain ⟨stream, hstream, -, hbegun⟩ | ⟨rfl, -⟩ := stream?_after hstream'
  · refine ⟨stream, hstream, ?_⟩
    cases hstarted : stream.started with
    | false => rfl
    | true => rw [hbegun hstarted] at hnew; exact hnew
  · exact absurd rfl hm

variable {feed : Nat} {m : Move}

/-- A move that leaves the poller as it is brings the client nothing. -/
theorem notices_of_poller (h : s'.poller = s.poller) : Notices name feed s s' none none :=
  .nothing (by rw [h]) (by rw [h]; exact id)

theorem notices_take {t : Timestamp} {stats : Except Failure (List Snapshot)}
    (h : s'.poller = (s.poller.take t stats).1) :
    Notices name feed s s' (Poller.published? (s.poller.take t stats) t) none := by
  cases hpublished : Poller.published? (s.poller.take t stats) t with
  | some r =>
    have hshows := s.poller.shows_take t stats
    rw [hpublished, ← h] at hshows
    exact .poll hshows
  | none =>
    have hfeeds := Poller.feeds_take hpublished
    rw [← h] at hfeeds
    refine .nothing ?_ ?_
    · rw [Poller.held, hfeeds, Poller.held]
    · rw [Poller.takes, hfeeds, Poller.takes]
      exact id

theorem notices_closeStream {n : Text} (h : s'.poller = (s.closeStream n).poller) :
    Notices name feed s s' none none := by
  obtain ⟨-, hsame⟩ | ⟨-, hsame | ⟨k, hunsubscribe⟩⟩ := s.closeStream_cases n
  · exact notices_of_poller (h.trans (congrArg Service.poller hsame))
  · exact notices_of_poller (h.trans hsame)
  · rw [hunsubscribe] at h
    refine .nothing ?_ ?_
    · rw [h, Poller.held_unsubscribe]
    · rw [h]
      exact Poller.takes_of_takes_unsubscribe

theorem notices_ask (s : Service) (name : Text) (feed : Nat) (n : Text) :
    Notices name feed s (s.ask n).1 none (if n = name then (s.ask n).2.map .greeting else none) := by
  obtain ⟨hpoller, hnone | ⟨hnew, hlatest, hbegun, hgreets⟩⟩ := s.ask_cases n
  · rw [hnone, Option.map_none, ite_self]
    exact notices_of_poller hpoller
  · split
    · subst n
      rw [hgreets]
      exact .greeting hnew hlatest hpoller hbegun
    · exact notices_of_poller hpoller

theorem notices_look (h : s.Owns name feed) (n : Text) (stays : Bool) :
    Notices name feed s (s.look n stays).1 none
      (if n = name then (s.look n stays).2.map .fed else none) := by
  obtain hlook | hlook | ⟨stream, r, hstream, hstarted, hheld, hlook⟩ := s.look_cases n stays
  · rw [hlook, Option.map_none, ite_self]
    exact notices_of_poller rfl
  · rw [hlook, Option.map_none, ite_self]
    exact notices_closeStream rfl
  · rw [hlook]
    have hfeed := h.stream n stream hstream
    split
    · rename_i heq
      subst heq
      rw [hfeed.mp rfl] at hheld ⊢
      refine .fed ?_ ?_
      · rw [Poller.held_drop, if_pos rfl, List.drop_one]
        exact (List.cons_head?_tail hheld).symm
      · rintro ⟨stream', hstream', hnew⟩
        obtain rfl := Option.some.inj (hstream.symm.trans hstream')
        rw [hstarted] at hnew
        cases hnew
    · rename_i hne
      -- the event is another client's, and comes out of another feed
      refine .nothing ?_ ?_
      · rw [Poller.held_drop, if_neg fun heq => hne (hfeed.mpr heq)]
      · rw [Poller.takes_drop]
        exact id

/-- **What one client notices of a move.** -/
theorem notices_after (h : s.Owns name feed) (m : Move) :
    Notices name feed s (s.after m) (s.completed? m) (s.event? name m) := by
  cases m with
  | poll t => exact notices_take rfl
  | tick t =>
    show Notices name feed s (s.tick t) (if s.isRunning then s.polled? t else none) none
    split
    · rename_i hrun
      exact notices_take (tick_of_running hrun).2.1
    · rename_i hrun
      exact notices_of_poller
        (congrArg Service.poller (tick_of_not_running (Bool.eq_false_of_not_eq_true hrun) t))
  | start => exact notices_of_poller (start_keeps s).2
  | stop => exact notices_of_poller rfl
  | openStream n =>
    exact .nothing (Poller.held_subscribe h.bound)
      (fun htakes => (Poller.takes_subscribe h.bound).symm.trans htakes)
  | ask n => exact notices_ask s name feed n
  | look n stays => exact notices_look h n stays
  | closeStream n => exact notices_closeStream rfl

/-! ### Feeds stay with their clients -/

theorem feedsExist_after (h : s.FeedsExist) (m : Move) : (s.after m).FeedsExist := by
  intro n stream' hstream'
  obtain ⟨stream, hstream, hfeed, -⟩ | ⟨rfl, hfeed⟩ := stream?_after hstream'
  · rw [hfeed]
    exact (h n stream hstream).trans_le (length_feeds_le_after s m)
  · rw [hfeed]
    exact s.poller.length_feeds_subscribe.ge

/-- A stream that is opened gets a feed of its own. -/
theorem owns_openStream (h : s.FeedsExist) (name : Text) :
    (s.openStream name).Owns name s.poller.feeds.length := by
  refine ⟨s.poller.length_feeds_subscribe.ge, ?_⟩
  intro n stream hstream
  rw [stream?_openStream] at hstream
  split at hstream
  · rename_i heq
    obtain rfl := Option.some.inj hstream
    exact iff_of_true heq.symm rfl
  · rename_i hne
    exact iff_of_false (Ne.symm hne) (h n stream hstream).ne

theorem owns_after (h : s.Owns name feed) (hm : m ≠ .openStream name) :
    (s.after m).Owns name feed := by
  refine ⟨h.bound.trans_le (length_feeds_le_after s m), ?_⟩
  intro n stream' hstream'
  obtain ⟨stream, hstream, hfeed, -⟩ | ⟨rfl, hfeed⟩ := stream?_after hstream'
  · rw [hfeed]
    exact h.stream n stream hstream
  · refine iff_of_false ?_ ?_
    · rintro rfl
      exact hm rfl
    · rw [hfeed]
      exact h.bound.ne'

end Service

end CakeMonitor
