import CakeMonitor.Proofs.Service.Stream
import CakeMonitor.Proofs.Service.Subscribers

/-!
# Which subscribers have a stream

A stream subscribes when it is opened, and unsubscribes at the end of what it does for its client. One
that is closed before its client has asked for anything has not begun, does nothing, and so never gets to
that end. Such streams leave their feeds subscribed; otherwise the feeds that are subscribed are those of
the open streams.

* `Service.feedOf?`, `Service.Open`: the feeds of the open streams.
* `Service.deserts?`, `Service.deserted`: the feeds that a move leaves behind, and a run.
* `Service.Shift`: all that a move can mean for streams and feeds; `shift_after`.
* `Service.Tracked`: the invariant; `Service.Tracked.of_shift` is one move, `Service.tracked_run` a run.
* `Service.subscribed_iff_open`: when the subscribers are exactly the open streams.
-/

namespace CakeMonitor

/-! ## Feeds -/

namespace Poller

theorem takes_take (p : Poller) (now : Timestamp) (stats : Except Failure (List Snapshot)) (k : Nat) :
    (p.take now stats).1.takes k = p.takes k := by
  cases hpublished : published? (p.take now stats) now with
  | none => rw [takes, feeds_take hpublished, takes]
  | some r =>
    have hshows := p.shows_take now stats
    rw [hpublished] at hshows
    exact takes_of_publishes hshows k

theorem takes_unsubscribe (p : Poller) (n k : Nat) :
    (p.unsubscribe n).takes k = if n = k then false else p.takes k := by
  unfold unsubscribe updateFeed takes
  rw [List.getElem?_modify]
  split
  · cases p.feeds[k]? <;> rfl
  · cases p.feeds[k]? <;> rfl

theorem takes_eq_subscribe (p : Poller) (k : Nat) :
    p.subscribe.takes k = if p.feeds.length = k then true else p.takes k := by
  by_cases hk : k < p.feeds.length
  · rw [takes_subscribe hk, if_neg hk.ne']
  · unfold subscribe takes
    rw [List.getElem?_append_right (Nat.not_lt.mp hk), List.getElem?_eq_none (Nat.not_lt.mp hk)]
    split
    · rename_i heq
      rw [← heq, Nat.sub_self]
      rfl
    · rename_i hne
      have hbeyond : k - p.feeds.length ≠ 0 := by omega
      rw [List.getElem?_eq_none (Nat.one_le_iff_ne_zero.mpr hbeyond)]

end Poller

namespace Service

/-! ## Streams and their feeds -/

/-- The feed of the stream of that name, if it is open. -/
def feedOf? (s : Service) (name : Text) : Option Nat := (s.stream? name).map (·.feed)

/-- The feed is that of an open stream. -/
def Open (s : Service) (feed : Nat) : Prop := ∃ name, s.feedOf? name = some feed

/-- A stream is opened only under a name that no open stream has. -/
def keepsNames (s : Service) : Move → Bool
  | .openStream n => (s.stream? n).isNone
  | _ => true

/-- No two streams are open under one name at any time. -/
def namesFree (s : Service) : List Move → Bool
  | [] => true
  | m :: moves => s.keepsNames m && (s.after m).namesFree moves

/-- The feed that a move leaves behind: that of a stream which is closed and has not begun. -/
def deserts? (s : Service) : Move → Option Nat
  | .closeStream n => (s.stream? n).bind fun stream => if stream.started then none else some stream.feed
  | _ => none

/-- The feeds that some moves leave behind. -/
def deserted (s : Service) : List Move → List Nat
  | [] => []
  | m :: moves => (s.deserts? m).toList ++ (s.after m).deserted moves

/-- All that a move can mean for streams and feeds: nothing, or a stream is opened, or one is closed and
its feed unsubscribed, or one is closed and its feed is left behind. -/
inductive Shift (s s' : Service) : Option Nat → Prop
  | nothing (streams : ∀ m, s'.feedOf? m = s.feedOf? m)
      (takes : ∀ k, s'.poller.takes k = s.poller.takes k)
      (length : s'.poller.feeds.length = s.poller.feeds.length) : Shift s s' none
  | opens (n : Text) (free : s.feedOf? n = none)
      (streams : ∀ m, s'.feedOf? m = if n = m then some s.poller.feeds.length else s.feedOf? m)
      (takes : ∀ k, s'.poller.takes k = if s.poller.feeds.length = k then true else s.poller.takes k)
      (length : s'.poller.feeds.length = s.poller.feeds.length + 1) : Shift s s' none
  | ends (n : Text) (feed : Nat) (opened : s.feedOf? n = some feed)
      (streams : ∀ m, s'.feedOf? m = if n = m then none else s.feedOf? m)
      (takes : ∀ k, s'.poller.takes k = if feed = k then false else s.poller.takes k)
      (length : s'.poller.feeds.length = s.poller.feeds.length) : Shift s s' none
  | deserts (n : Text) (feed : Nat) (opened : s.feedOf? n = some feed)
      (streams : ∀ m, s'.feedOf? m = if n = m then none else s.feedOf? m)
      (takes : ∀ k, s'.poller.takes k = s.poller.takes k)
      (length : s'.poller.feeds.length = s.poller.feeds.length) : Shift s s' (some feed)

variable {s s' : Service} {n : Text} {left : List Nat}

theorem shift_of_same (hstreams : s'.streams = s.streams)
    (htakes : ∀ k, s'.poller.takes k = s.poller.takes k)
    (hlength : s'.poller.feeds.length = s.poller.feeds.length) : Shift s s' none :=
  .nothing (fun m => by rw [feedOf?, stream?, hstreams, feedOf?, stream?]) htakes hlength

theorem feedOf?_removeStream (s : Service) (n m : Text) :
    (s.removeStream n).feedOf? m = if n = m then none else s.feedOf? m := by
  unfold feedOf? stream? removeStream
  rw [named?_filter]
  split <;> rfl

/-- A stream that has begun ends with its subscription. -/
theorem shift_closeStream_of_started {stream : EventStream} (h : s.stream? n = some stream)
    (hstarted : stream.started = true) : Shift s (s.closeStream n) none := by
  have hclose : s.closeStream n
      = { s.removeStream n with poller := s.poller.unsubscribe stream.feed } := by
    unfold stream? at h
    unfold closeStream
    rw [h]
    simp only [hstarted, if_true]
    rfl
  have hopened : s.feedOf? n = some stream.feed := by rw [feedOf?, h]; rfl
  rw [hclose]
  exact .ends n stream.feed hopened (feedOf?_removeStream s n) (s.poller.takes_unsubscribe stream.feed)
    (s.poller.length_feeds_updateFeed _ _)

/-- One that has not begun leaves its subscription behind. -/
theorem shift_closeStream_of_unstarted {stream : EventStream} (h : s.stream? n = some stream)
    (hstarted : stream.started = false) : Shift s (s.closeStream n) (some stream.feed) := by
  have hclose : s.closeStream n = s.removeStream n := by
    unfold stream? at h
    unfold closeStream
    rw [h]
    simp only [hstarted]
    rfl
  have hopened : s.feedOf? n = some stream.feed := by rw [feedOf?, h]; rfl
  rw [hclose]
  exact .deserts n stream.feed hopened (feedOf?_removeStream s n) (fun k => rfl) rfl

theorem shift_closeStream (s : Service) (n : Text) :
    Shift s (s.closeStream n) (s.deserts? (.closeStream n)) := by
  show Shift s _ ((s.stream? n).bind fun stream => if stream.started then none else some stream.feed)
  cases h : s.stream? n with
  | none =>
    have hclose : s.closeStream n = s := by
      unfold stream? at h
      unfold closeStream
      rw [h]
    rw [hclose]
    exact shift_of_same rfl (fun k => rfl) rfl
  | some stream =>
    cases hstarted : stream.started with
    | true =>
      rw [Option.bind_some, if_pos hstarted]
      exact shift_closeStream_of_started h hstarted
    | false =>
      rw [Option.bind_some, if_neg (by rw [hstarted]; nofun)]
      exact shift_closeStream_of_unstarted h hstarted

theorem shift_ask (s : Service) (n : Text) : Shift s (s.ask n).1 none := by
  have hpoller : (s.ask n).1.poller = s.poller := (s.ask_cases n).1
  refine .nothing (fun m => ?_) (fun k => by rw [hpoller]) (by rw [hpoller])
  cases h : s.stream? n with
  | none => rw [ask_of_closed h]
  | some stream =>
    rw [ask_of_open h, feedOf?, stream?_beginStream]
    split
    · rename_i heq
      rw [feedOf?, ← heq, h]
      rfl
    · rfl

/-- A look closes only a stream that has begun. -/
theorem shift_look (s : Service) (n : Text) (stays : Bool) : Shift s (s.look n stays).1 none := by
  have hsame : Shift s s none := shift_of_same rfl (fun k => rfl) rfl
  unfold look
  cases h : named? n s.streams with
  | none => exact hsame
  | some stream =>
    dsimp only
    by_cases hstarted : stream.started = true
    · cases stays with
      | false =>
        simp only [hstarted]
        exact shift_closeStream_of_started h hstarted
      | true =>
        simp only [hstarted]
        cases s.poller.held stream.feed with
        | nil => exact hsame
        | cons r held =>
          exact shift_of_same rfl (s.poller.takes_drop stream.feed 1)
            (s.poller.length_feeds_updateFeed _ _)
    · simp only [Bool.not_eq_true] at hstarted
      simp only [hstarted]
      exact hsame

/-- **What a move means for streams and feeds.** -/
theorem shift_after (s : Service) (m : Move) (h : s.keepsNames m = true) :
    Shift s (s.after m) (s.deserts? m) := by
  have hpolled {s' : Service} (t : Timestamp) (hstreams : s'.streams = s.streams)
      (hpoller : s'.poller = (s.poller.take t (s.collected t).1).1) : Shift s s' none :=
    shift_of_same hstreams (fun k => by rw [hpoller, Poller.takes_take])
      (by rw [hpoller, Poller.length_feeds_take])
  cases m with
  | poll t => exact hpolled t rfl rfl
  | tick t =>
    cases hrun : s.isRunning with
    | true => exact hpolled t (streams_tick s t) (tick_of_running hrun).2.1
    | false =>
      show Shift s (s.tick t) none
      rw [tick_of_not_running hrun]
      exact shift_of_same rfl (fun k => rfl) rfl
  | start =>
    obtain ⟨hstreams, hpoller⟩ := start_keeps s
    exact shift_of_same hstreams (fun k => congrArg (·.takes k) hpoller) (congrArg (·.feeds.length) hpoller)
  | stop => exact shift_of_same rfl (fun k => rfl) rfl
  | openStream n =>
    have hfree : s.feedOf? n = none := by rw [feedOf?, Option.isNone_iff_eq_none.mp h]; rfl
    refine .opens n hfree (fun m => ?_) s.poller.takes_eq_subscribe s.poller.length_feeds_subscribe
    show ((s.openStream n).stream? m).map _ = _
    rw [stream?_openStream]
    split <;> rfl
  | ask n => exact shift_ask s n
  | look n stays => exact shift_look s n stays
  | closeStream n => exact shift_closeStream s n

/-! ## Open streams -/

theorem open_of_same (hstreams : ∀ m, s'.feedOf? m = s.feedOf? m) (k : Nat) : s'.Open k ↔ s.Open k := by
  unfold Open
  simp only [hstreams]

theorem open_of_opened {feed : Nat} (hfree : s.feedOf? n = none)
    (hstreams : ∀ m, s'.feedOf? m = if n = m then some feed else s.feedOf? m) (k : Nat) :
    s'.Open k ↔ feed = k ∨ s.Open k := by
  constructor
  · rintro ⟨m, hm⟩
    rw [hstreams] at hm
    split at hm
    · exact Or.inl (Option.some.inj hm)
    · exact Or.inr ⟨m, hm⟩
  · rintro (rfl | ⟨m, hm⟩)
    · exact ⟨n, by rw [hstreams, if_pos rfl]⟩
    · have hne : n ≠ m := by
        rintro rfl
        rw [hfree] at hm
        cases hm
      exact ⟨m, by rw [hstreams, if_neg hne, hm]⟩

theorem open_of_closed {feed : Nat}
    (hapart : ∀ {m k}, s.feedOf? n = some k → s.feedOf? m = some k → n = m)
    (hopened : s.feedOf? n = some feed)
    (hstreams : ∀ m, s'.feedOf? m = if n = m then none else s.feedOf? m) (k : Nat) :
    s'.Open k ↔ s.Open k ∧ feed ≠ k := by
  constructor
  · rintro ⟨m, hm⟩
    rw [hstreams] at hm
    split at hm
    · cases hm
    · rename_i hne
      refine ⟨⟨m, hm⟩, ?_⟩
      rintro rfl
      exact hne (hapart hopened hm)
  · rintro ⟨⟨m, hm⟩, hk⟩
    have hne : n ≠ m := by
      rintro rfl
      exact hk (Option.some.inj (hopened.symm.trans hm))
    exact ⟨m, by rw [hstreams, if_neg hne, hm]⟩

/-! ## The invariant -/

/-- Who is subscribed is an open stream with a feed of its own, or was left behind. -/
structure Tracked (s : Service) (left : List Nat) : Prop where
  exist : ∀ {n k}, s.feedOf? n = some k → k < s.poller.feeds.length
  apart : ∀ {n m k}, s.feedOf? n = some k → s.feedOf? m = some k → n = m
  takes : ∀ k, s.poller.takes k = true ↔ s.Open k ∨ k ∈ left
  behind : ∀ k ∈ left, k < s.poller.feeds.length ∧ ¬ s.Open k

namespace Tracked

variable (h : s.Tracked left)

include h

/-- A new feed is nobody's. -/
theorem not_open_length : ¬ s.Open s.poller.feeds.length := by
  rintro ⟨m, hm⟩
  exact Nat.lt_irrefl _ (h.exist hm)

theorem of_opened (hfree : s.feedOf? n = none)
    (hstreams : ∀ m, s'.feedOf? m = if n = m then some s.poller.feeds.length else s.feedOf? m)
    (htakes : ∀ k, s'.poller.takes k = if s.poller.feeds.length = k then true else s.poller.takes k)
    (hlength : s'.poller.feeds.length = s.poller.feeds.length + 1) : s'.Tracked left where
  exist hm := by
    rw [hstreams] at hm
    rw [hlength]
    split at hm
    · obtain rfl := Option.some.inj hm
      exact Nat.lt_succ_self _
    · exact Nat.lt_succ_of_lt (h.exist hm)
  apart ha hb := by
    rw [hstreams] at ha hb
    split at ha <;> split at hb
    · rename_i hn hm
      exact hn.symm.trans hm
    · obtain rfl := Option.some.inj ha
      exact absurd ⟨_, hb⟩ h.not_open_length
    · obtain rfl := Option.some.inj hb
      exact absurd ⟨_, ha⟩ h.not_open_length
    · exact h.apart ha hb
  takes k := by
    rw [htakes, open_of_opened hfree hstreams, or_assoc, ← h.takes k]
    by_cases hk : s.poller.feeds.length = k <;> simp [hk]
  behind k hk := by
    obtain ⟨hlt, hnot⟩ := h.behind k hk
    rw [hlength, open_of_opened hfree hstreams, not_or]
    exact ⟨Nat.lt_succ_of_lt hlt, hlt.ne', hnot⟩

theorem exist_of_closed (hstreams : ∀ m, s'.feedOf? m = if n = m then none else s.feedOf? m)
    (hlength : s'.poller.feeds.length = s.poller.feeds.length) {m : Text} {k : Nat}
    (hm : s'.feedOf? m = some k) : k < s'.poller.feeds.length := by
  rw [hstreams] at hm
  rw [hlength]
  split at hm
  · cases hm
  · exact h.exist hm

theorem apart_of_closed (hstreams : ∀ m, s'.feedOf? m = if n = m then none else s.feedOf? m)
    {a b : Text} {k : Nat} (ha : s'.feedOf? a = some k) (hb : s'.feedOf? b = some k) : a = b := by
  rw [hstreams] at ha hb
  split at ha
  · cases ha
  · split at hb
    · cases hb
    · exact h.apart ha hb

/-- **What a move means for the invariant.** -/
theorem of_shift {deserts : Option Nat} (hshift : Shift s s' deserts) :
    s'.Tracked (left ++ deserts.toList) := by
  cases hshift with
  | nothing streams takes length =>
    rw [Option.toList_none, List.append_nil]
    refine ⟨fun hm => ?_, fun ha hb => ?_, fun k => ?_, fun k hk => ?_⟩
    · rw [length]
      exact h.exist (streams _ ▸ hm)
    · exact h.apart (streams _ ▸ ha) (streams _ ▸ hb)
    · rw [takes, open_of_same streams]
      exact h.takes k
    · rw [length, open_of_same streams]
      exact h.behind k hk
  | opens n free streams takes length =>
    rw [Option.toList_none, List.append_nil]
    exact h.of_opened free streams takes length
  | ends n feed opened streams takes length =>
    rw [Option.toList_none, List.append_nil]
    have hopen := open_of_closed h.apart opened streams
    refine ⟨h.exist_of_closed streams length, h.apart_of_closed streams, fun k => ?_, fun k hk => ?_⟩
    · -- the feed was not left behind, since its stream was open until now
      have hnot : feed ∉ left := fun hmem => (h.behind feed hmem).2 ⟨n, opened⟩
      rw [takes, hopen]
      by_cases hk : feed = k
      · subst hk
        simp [hnot]
      · rw [if_neg hk, h.takes k]
        simp [hk]
    · obtain ⟨hlt, hclosed⟩ := h.behind k hk
      rw [length, hopen]
      exact ⟨hlt, fun hboth => hclosed hboth.1⟩
  | deserts n feed opened streams takes length =>
    have hopen := open_of_closed h.apart opened streams
    refine ⟨h.exist_of_closed streams length, h.apart_of_closed streams, fun k => ?_, fun k hk => ?_⟩
    · rw [takes, hopen, h.takes k]
      by_cases hk : feed = k
      · subst hk
        simp [show s.Open feed from ⟨n, opened⟩]
      · simp [hk, Ne.symm hk]
    · rw [length, hopen]
      rcases List.mem_append.mp hk with hbefore | hnow
      · obtain ⟨hlt, hclosed⟩ := h.behind k hbefore
        exact ⟨hlt, fun hboth => hclosed hboth.1⟩
      · obtain rfl := List.mem_singleton.mp hnow
        exact ⟨h.exist opened, fun hboth => hboth.2 rfl⟩

end Tracked

/-- **The invariant holds after every run.** -/
theorem tracked_run (h : s.Tracked left) (moves : List Move) (hnames : s.namesFree moves = true) :
    (s.run moves).Tracked (left ++ s.deserted moves) := by
  induction moves generalizing s left with
  | nil =>
    rw [deserted, List.append_nil]
    exact h
  | cons m moves ih =>
    rw [namesFree, Bool.and_eq_true] at hnames
    obtain ⟨hkeeps, hlater⟩ := hnames
    rw [deserted, ← List.append_assoc]
    exact ih (h.of_shift (shift_after s m hkeeps)) hlater

/-! ## Subscribers and streams -/

/-- No stream is open, and nobody is subscribed. -/
structure Unused (s : Service) : Prop where
  streams : s.streams = []
  takes : ∀ k, s.poller.takes k = false

theorem Unused.tracked (h : s.Unused) : s.Tracked [] := by
  have hnone (m : Text) : s.feedOf? m = none := by
    rw [feedOf?, stream?, h.streams]
    rfl
  refine ⟨fun hm => ?_, fun ha => ?_, fun k => ?_, fun k hk => absurd hk List.not_mem_nil⟩
  · rw [hnone] at hm
    cases hm
  · rw [hnone] at ha
    cases ha
  · rw [h.takes]
    simp [Open, hnone]

/-- **Which subscribers have a stream**: besides the open streams, those that were closed before they had
begun are subscribed. So the subscribers are exactly the open streams unless there were such. -/
theorem subscribed_iff_open (s : Service) (hunused : s.Unused) (moves : List Move)
    (hnames : s.namesFree moves = true) :
    (∀ k, (s.run moves).poller.takes k = true ↔ (s.run moves).Open k ∨ k ∈ s.deserted moves) ∧
      ((∀ k, (s.run moves).poller.takes k = true ↔ (s.run moves).Open k) ↔ s.deserted moves = []) := by
  have htracked := tracked_run hunused.tracked moves hnames
  rw [List.nil_append] at htracked
  refine ⟨htracked.takes, fun hexact => ?_, fun hnone k => ?_⟩
  · refine List.eq_nil_iff_forall_not_mem.mpr fun k hk => ?_
    have htakes := (htracked.takes k).mpr (Or.inr hk)
    exact (htracked.behind k hk).2 ((hexact k).mp htakes)
  · rw [htracked.takes k, hnone]
    simp

/-- Two streams are opened, and one of them begins and ends. -/
def ended : List Move := [.openStream "c", .openStream "d", .ask "c", .poll 0, .look "c" false]

/-- The one that goes on is subscribed, and the other is not. -/
theorem subscribed_iff_open_ended : idle.Unused ∧ idle.namesFree ended = true ∧
    idle.deserted ended = [] ∧ ¬ (idle.run ended).Open 0 ∧ (idle.run ended).Open 1 := by
  have hunused : idle.Unused := ⟨rfl, fun k => rfl⟩
  have hnames : idle.namesFree ended = true := by decide +kernel
  have hnone : idle.deserted ended = [] := by decide +kernel
  have hexact := (subscribed_iff_open idle hunused ended hnames).2.mpr hnone
  refine ⟨hunused, hnames, hnone, fun hopen => ?_, (hexact 1).mp (by decide +kernel)⟩
  have htakes := (hexact 0).mpr hopen
  exact absurd htakes (by decide +kernel)

/-- A stream that is closed before its client has asked for anything stays subscribed. -/
theorem idle_left_behind :
    let moves : List Move := [.openStream "c", .closeStream "c"]
    idle.Unused ∧ idle.namesFree moves = true ∧ (idle.run moves).streams = [] ∧
      ¬ ∀ k, (idle.run moves).poller.takes k = true ↔ (idle.run moves).Open k := by
  intro moves
  have hstreams : (idle.run moves).streams = [] := by decide +kernel
  refine ⟨⟨rfl, fun k => rfl⟩, by decide +kernel, hstreams, fun hexact => ?_⟩
  obtain ⟨n, hn⟩ := (hexact 0).mp (by decide +kernel)
  rw [feedOf?, stream?, hstreams] at hn
  cases hn

end Service

end CakeMonitor
