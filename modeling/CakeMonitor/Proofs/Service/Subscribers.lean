import CakeMonitor.Proofs.Service.Moves

/-!
# Subscribers of the poller

Polls and what named subscribers do are the deeds of the service. A poll meets the site as it is at that
time, so its outcome may be any; a subscriber comes, leaves, or takes responses out of its feed.

A deed means something for the feed of one subscriber only through what it publishes and through what that
subscriber itself does. A name stands for its latest subscription.

* `Service.Deed`, `Service.perform`: the deeds.
* `Service.published?`, `Service.readBy`: the response that a deed publishes, and those that are read.
* `Service.feed?`: the feed of a name. `Deed.onFeed` is what a deed makes of it, and `Deed.concerns`
  whether that is anything.
* `Service.FeedsApart`: no two names have one feed; `feedsApart_performAll`.
* `Service.feed?_perform`: the law of feeds.
-/

namespace CakeMonitor

/-! ## Feeds -/

namespace Feed

/-- The feed after a poll, which may have published a response. -/
def offered : Option Response → Feed → Feed
  | none, f => f
  | some r, f => f.offer r

/-- The feed gets nothing any more. -/
def close (f : Feed) : Feed := { f with subscribed := false }

/-- The feed without its oldest responses. -/
def skip (count : Nat) (f : Feed) : Feed := { f with held := f.held.drop count }

@[simp] theorem offered_none (f : Feed) : f.offered none = f := rfl

@[simp] theorem offered_some (r : Response) (f : Feed) : f.offered (some r) = f.offer r := rfl

end Feed

namespace Poller

theorem getElem?_feeds_take (p : Poller) (now : Timestamp) (stats : Except Failure (List Snapshot))
    (k : Nat) : (p.take now stats).1.feeds[k]?
      = p.feeds[k]?.map (Feed.offered (published? (p.take now stats) now)) := by
  cases hpublished : published? (p.take now stats) now with
  | none =>
    rw [feeds_take hpublished]
    exact Option.map_id'.symm
  | some r =>
    have hshows := p.shows_take now stats
    rw [hpublished] at hshows
    rw [hshows.feeds, List.getElem?_map]
    rfl

end Poller

namespace Service

/-! ## Deeds -/

/-- Take so many of the oldest responses out of the feed of that name. -/
def read (s : Service) (name : Text) (count : Nat) : Service × List Response :=
  match named? name s.subscriptions with
  | some feed => ({ s with poller := s.poller.drop feed count }, (s.poller.held feed).take count)
  | none => (s, [])

/-- All that can happen to the poller and its subscribers between two moments. -/
inductive Deed where
  /-- a poll at that time, when the site is so -/
  | poll (t : Timestamp) (site : Site)
  | subscribe (name : Text)
  | unsubscribe (name : Text)
  | read (name : Text) (count : Nat)
  deriving DecidableEq

/-- The service at that time, with the site as it is then. -/
def meet (s : Service) (t : Timestamp) (site : Site) : Service := { s with clock := t, site }

/-- The service after a deed. -/
def perform (s : Service) : Deed → Service
  | .poll t site => (s.meet t site).poll.1
  | .subscribe name => s.subscribe name
  | .unsubscribe name => s.unsubscribe name
  | .read name count => (s.read name count).1

/-- The service after some deeds. -/
def performAll (s : Service) (deeds : List Deed) : Service := deeds.foldl perform s

/-- The response that a deed publishes, if it is a poll and completed. -/
def published? (s : Service) : Deed → Option Response
  | .poll t site => (s.meet t site).polled? t
  | _ => none

/-- What the subscriber of that name reads. -/
def readBy (s : Service) (name : Text) : Deed → List Response
  | .read n count => if n = name then (s.read n count).2 else []
  | _ => []

/-- All that the subscriber of that name reads in the course of some deeds. -/
def received (s : Service) (name : Text) : List Deed → List Response
  | [] => []
  | d :: deeds => s.readBy name d ++ (s.perform d).received name deeds

/-- The feed of that name. -/
def feed? (s : Service) (name : Text) : Option Feed :=
  (named? name s.subscriptions).bind fun k => s.poller.feeds[k]?

/-- What the feed of that name holds. -/
def heldBy (s : Service) (name : Text) : List Response := ((s.feed? name).map (·.held)).getD []

/-- Change the feed of that name, if there is one. -/
def changeFeed (s : Service) (name : Text) (f : Feed → Feed) : Service :=
  match named? name s.subscriptions with
  | some k => { s with poller := s.poller.updateFeed k f }
  | none => s

/-- What a deed makes of the feed of that name, with the response that it publishes. -/
def Deed.onFeed (name : Text) (published : Option Response) : Deed → Option Feed → Option Feed
  | .poll _ _, f => f.map (Feed.offered published)
  | .subscribe n, f => if n = name then some {} else f
  | .unsubscribe n, f => if n = name then f.map Feed.close else f
  | .read n count, f => if n = name then f.map (Feed.skip count) else f

/-- Whether a deed may make a difference to the subscriber of that name. -/
def Deed.concerns (name : Text) : Deed → Bool
  | .poll _ _ => true
  | .subscribe n | .unsubscribe n | .read n _ => n = name

variable {s : Service} {name n : Text}

theorem performAll_append (s : Service) (deeds more : List Deed) :
    s.performAll (deeds ++ more) = (s.performAll deeds).performAll more := List.foldl_append

theorem received_append (s : Service) (name : Text) (deeds more : List Deed) :
    s.received name (deeds ++ more)
      = s.received name deeds ++ (s.performAll deeds).received name more := by
  induction deeds generalizing s with
  | nil => rfl
  | cons d deeds ih =>
    rw [List.cons_append, received, ih, received, List.append_assoc]
    rfl

theorem heldBy_eq {f : Feed} (h : s.feed? name = some f) : s.heldBy name = f.held := by
  unfold heldBy
  rw [h]
  rfl

theorem held_of_named {k : Nat} (h : named? name s.subscriptions = some k) :
    s.poller.held k = s.heldBy name := by
  unfold heldBy feed?
  rw [h]
  rfl

/-- Reading all that is held is draining the feed. -/
theorem drain_eq_read (s : Service) (name : Text) :
    s.drain name = s.read name (s.heldBy name).length := by
  unfold drain read
  cases hnamed : named? name s.subscriptions with
  | none => rfl
  | some k =>
    dsimp only
    rw [held_of_named hnamed, List.take_length]

/-- A reading brings the oldest responses of the feed. -/
theorem read_eq (s : Service) (name : Text) (count : Nat) :
    (s.read name count).2 = (s.heldBy name).take count := by
  unfold read
  cases hnamed : named? name s.subscriptions with
  | none =>
    unfold heldBy feed?
    rw [hnamed]
    exact List.take_nil.symm
  | some k =>
    dsimp only
    rw [held_of_named hnamed]

theorem changeFeed_of_none (h : named? n s.subscriptions = none) (f : Feed → Feed) :
    s.changeFeed n f = s := by
  unfold changeFeed
  rw [h]

theorem changeFeed_of_some {k : Nat} (h : named? n s.subscriptions = some k) (f : Feed → Feed) :
    s.changeFeed n f = { s with poller := s.poller.updateFeed k f } := by
  unfold changeFeed
  rw [h]

theorem perform_unsubscribe (s : Service) (n : Text) :
    s.perform (.unsubscribe n) = s.changeFeed n Feed.close := by
  show s.unsubscribe n = _
  unfold unsubscribe changeFeed
  cases named? n s.subscriptions <;> rfl

theorem perform_read (s : Service) (n : Text) (count : Nat) :
    s.perform (.read n count) = s.changeFeed n (Feed.skip count) := by
  show (s.read n count).1 = _
  unfold read changeFeed
  cases named? n s.subscriptions <;> rfl

theorem collector_perform (s : Service) (d : Deed) : (s.perform d).collector = s.collector := by
  cases d with
  | poll t site => rfl
  | subscribe n => rfl
  | unsubscribe n =>
    rw [perform_unsubscribe, changeFeed]
    split <;> rfl
  | read n count =>
    rw [perform_read, changeFeed]
    split <;> rfl

/-- What is collected does not depend on the poller. -/
theorem collected_congr {s' : Service} (h : s'.collector = s.collector) (t : Timestamp) (site : Site) :
    (s'.meet t site).collected t = (s.meet t site).collected t := by
  unfold collected
  rw [show (s'.meet t site).collector = (s.meet t site).collector from h]
  rfl

/-! ### Deeds of others -/

variable {d : Deed}

theorem onFeed_of_not_concerns (h : d.concerns name = false) (published : Option Response)
    (f : Option Feed) : d.onFeed name published f = f := by
  cases d with
  | poll t site => cases h
  | subscribe n => exact if_neg (of_decide_eq_false h)
  | unsubscribe n => exact if_neg (of_decide_eq_false h)
  | read n count => exact if_neg (of_decide_eq_false h)

theorem readBy_of_not_concerns (h : d.concerns name = false) : s.readBy name d = [] := by
  cases d with
  | read n count => exact if_neg (of_decide_eq_false h)
  | _ => rfl

theorem published?_of_not_concerns (h : d.concerns name = false) : s.published? d = none := by
  cases d with
  | poll t site => cases h
  | _ => rfl

/-! ## Feeds of different names -/

/-- Every name has a feed that exists, and no two have the same. -/
structure FeedsApart (s : Service) : Prop where
  exist : ∀ {n k}, named? n s.subscriptions = some k → k < s.poller.feeds.length
  apart : ∀ {n m k}, named? n s.subscriptions = some k → named? m s.subscriptions = some k → n = m

theorem feedsApart_of_none (h : s.subscriptions = []) : s.FeedsApart where
  exist hn := by rw [h] at hn; cases hn
  apart hn := by rw [h] at hn; cases hn

theorem named?_subscribe (s : Service) (n name : Text) : named? name (s.subscribe n).subscriptions
    = if n = name then some s.poller.feeds.length else named? name s.subscriptions :=
  named?_cons name (n, s.poller.feeds.length) s.subscriptions

theorem feedsApart_subscribe (h : s.FeedsApart) (n : Text) : (s.subscribe n).FeedsApart where
  exist hk := by
    rw [named?_subscribe] at hk
    show _ < (s.poller.subscribe).feeds.length
    rw [Poller.length_feeds_subscribe]
    split at hk
    · obtain rfl := Option.some.inj hk
      exact Nat.lt_succ_self _
    · exact Nat.lt_succ_of_lt (h.exist hk)
  apart ha hb := by
    rw [named?_subscribe] at ha hb
    split at ha <;> split at hb
    · rename_i hn hm
      exact hn.symm.trans hm
    · obtain rfl := Option.some.inj ha
      exact absurd (h.exist hb) (Nat.lt_irrefl _)
    · obtain rfl := Option.some.inj hb
      exact absurd (h.exist ha) (Nat.lt_irrefl _)
    · exact h.apart ha hb

theorem feedsApart_changeFeed (h : s.FeedsApart) (n : Text) (f : Feed → Feed) :
    (s.changeFeed n f).FeedsApart := by
  unfold changeFeed
  cases named? n s.subscriptions with
  | none => exact h
  | some k => exact ⟨fun hn => (s.poller.length_feeds_updateFeed k f).symm ▸ h.exist hn, h.apart⟩

/-- **Feeds stay apart.** -/
theorem feedsApart_perform (h : s.FeedsApart) (d : Deed) : (s.perform d).FeedsApart := by
  cases d with
  | poll t site =>
    have hlength := s.poller.length_feeds_take t ((s.meet t site).collected t).1
    exact ⟨fun hn => hlength.symm ▸ h.exist hn, h.apart⟩
  | subscribe n => exact feedsApart_subscribe h n
  | unsubscribe n =>
    rw [perform_unsubscribe]
    exact feedsApart_changeFeed h n Feed.close
  | read n count =>
    rw [perform_read]
    exact feedsApart_changeFeed h n (Feed.skip count)

theorem feedsApart_performAll (h : s.FeedsApart) (deeds : List Deed) :
    (s.performAll deeds).FeedsApart := by
  induction deeds generalizing s with
  | nil => exact h
  | cons d deeds ih => exact ih (feedsApart_perform h d)

/-! ## The law of feeds -/

theorem feed?_eq_none (h : named? name s.subscriptions = none) : s.feed? name = none := by
  unfold feed?
  rw [h]
  rfl

/-- A change of the feed of one name is no change for the others. -/
theorem feed?_changeFeed (h : s.FeedsApart) (n name : Text) (f : Feed → Feed) :
    (s.changeFeed n f).feed? name = if n = name then (s.feed? name).map f else s.feed? name := by
  cases hk : named? n s.subscriptions with
  | none =>
    rw [changeFeed_of_none hk]
    by_cases hn : n = name
    · rw [if_pos hn, ← hn, feed?_eq_none hk]
      rfl
    · rw [if_neg hn]
  | some k =>
    rw [changeFeed_of_some hk]
    unfold feed? Poller.updateFeed
    dsimp only
    cases hname : named? name s.subscriptions with
    | none => exact (ite_self none).symm
    | some j =>
      by_cases hn : n = name
      · subst hn
        obtain rfl := Option.some.inj (hk.symm.trans hname)
        simp
      · have hkj : k ≠ j := fun heq => hn (h.apart hk (heq ▸ hname))
        simp [hn, hkj]

theorem feed?_subscribe (h : s.FeedsApart) (n name : Text) :
    (s.subscribe n).feed? name = if n = name then some {} else s.feed? name := by
  unfold feed?
  rw [named?_subscribe]
  split
  · exact List.getElem?_concat_length
  · cases hname : named? name s.subscriptions with
    | none => rfl
    | some j => exact List.getElem?_append_left (h.exist hname)

theorem feed?_poll (s : Service) (t : Timestamp) (site : Site) (name : Text) :
    (s.perform (.poll t site)).feed? name
      = (s.feed? name).map (Feed.offered (s.published? (.poll t site))) := by
  show (named? name s.subscriptions).bind _ = Option.map _ ((named? name s.subscriptions).bind _)
  cases named? name s.subscriptions with
  | none => rfl
  | some j => exact Poller.getElem?_feeds_take _ _ _ j

/-- **The law of feeds**: what a deed makes of the feed of a name follows from the deed, from what it
publishes and from that feed alone. -/
theorem feed?_perform (h : s.FeedsApart) (d : Deed) (name : Text) :
    (s.perform d).feed? name = d.onFeed name (s.published? d) (s.feed? name) := by
  cases d with
  | poll t site => exact feed?_poll s t site name
  | subscribe n => exact feed?_subscribe h n name
  | unsubscribe n =>
    rw [perform_unsubscribe]
    exact feed?_changeFeed h n name Feed.close
  | read n count =>
    rw [perform_read]
    exact feed?_changeFeed h n name (Feed.skip count)

/-- A poll of a queue that has sent a byte. -/
def pollAt (t : Timestamp) : Deed :=
  .poll t { world := { runs := [{ out := sentReport ("1" : Text) }] } }

end Service

end CakeMonitor
