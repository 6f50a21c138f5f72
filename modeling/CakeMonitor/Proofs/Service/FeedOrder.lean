import CakeMonitor.Proofs.Service.Subscribers

/-!
# What a subscriber gets

A response that is published goes to every feed that is subscribed and not full. So a subscriber reads, in
order, what was published while it was subscribed, except what met its feed full; and since no deed looks
at the feed of another name, nobody else's deeds make a difference to it, nor to the poller.

* `Service.Offer`, `Service.offers`, `Service.accepted`: what is published, beside how full a feed is then.
* `Service.received_append_heldBy`: what is read and what is left over were taken.
* `Service.SameFor`: services between which a subscriber sees no difference; `sameFor_performAll`.
* `Service.subscriber_gets`: order, loss and independence.
-/

namespace CakeMonitor

namespace Service

/-! ## Offers -/

/-- A response that is published while a feed holds so many. -/
structure Offer where
  response : Response
  fill : Nat
  deriving DecidableEq

/-- The responses that do not meet the feed full. -/
def accepted (offers : List Offer) : List Response :=
  (offers.filter (·.fill ≠ Feed.capacity)).map (·.response)

/-- What a deed offers to the feed of that name. -/
def offer? (s : Service) (name : Text) (d : Deed) : Option Offer :=
  (s.published? d).map fun r => { response := r, fill := (s.heldBy name).length }

/-- What is offered to the feed of that name in the course of some deeds. -/
def offers (s : Service) (name : Text) : List Deed → List Offer
  | [] => []
  | d :: deeds => (s.offer? name d).toList ++ (s.perform d).offers name deeds

/-- The responses that are published in the course of some deeds. -/
def published (s : Service) : List Deed → List Response
  | [] => []
  | d :: deeds => (s.published? d).toList ++ (s.perform d).published deeds

variable {s s' : Service} {name : Text} {f : Feed} {d : Deed} {deeds : List Deed}

theorem accepted_append (os more : List Offer) : accepted (os ++ more) = accepted os ++ accepted more := by
  unfold accepted
  rw [List.filter_append, List.map_append]

/-- Everything that is published is offered. -/
theorem response_offers (s : Service) (name : Text) (deeds : List Deed) :
    (s.offers name deeds).map (·.response) = s.published deeds := by
  induction deeds generalizing s with
  | nil => rfl
  | cons d deeds ih =>
    rw [offers, published, List.map_append, ih, offer?]
    cases s.published? d <;> rfl

/-- So what a feed takes is published, in that order. -/
theorem accepted_sublist (s : Service) (name : Text) (deeds : List Deed) :
    (accepted (s.offers name deeds)).Sublist (s.published deeds) := by
  rw [← response_offers s name deeds]
  exact List.filter_sublist.map _

end Service

/-! ## What a feed takes -/

namespace Feed

open Service (Offer accepted)

/-- The feed holds no more than it may. -/
def Fits (f : Feed) : Prop := f.held.length ≤ capacity

/-- What a feed holds and, if it is subscribed, takes of these offers. -/
def taking (f : Feed) (offers : List Offer) : List Response :=
  f.held ++ if f.subscribed then accepted offers else []

variable {f : Feed}

theorem taking_nil (f : Feed) : f.taking [] = f.held := by
  rw [taking, show accepted [] = [] from rfl, ite_self, List.append_nil]

theorem taking_of_not_subscribed (h : f.subscribed = false) (offers : List Offer) :
    f.taking offers = f.held := by
  rw [taking, h]
  exact List.append_nil _

theorem subscribed_offered (r? : Option Response) (f : Feed) :
    (f.offered r?).subscribed = f.subscribed := by
  cases r? with
  | none => rfl
  | some r =>
    rw [offered_some, offer]
    split <;> rfl

/-- A feed that is subscribed takes what does not meet it full. -/
theorem held_offered (h : f.Fits) (r? : Option Response) : (f.offered r?).held
    = f.taking (r?.map fun r => ({ response := r, fill := f.held.length } : Offer)).toList := by
  cases r? with
  | none => exact (taking_nil f).symm
  | some r =>
    rw [offered_some, offer, taking]
    cases hsubscribed : f.subscribed with
    | false => simp
    | true =>
      by_cases hfull : f.held.length = capacity
      · simp [accepted, hfull]
      · have hspace : f.held.length < capacity := Nat.lt_of_le_of_ne h hfull
        simp [accepted, hfull, hspace]

theorem fits_offered (h : f.Fits) (r? : Option Response) : (f.offered r?).Fits := by
  cases r? with
  | none => exact h
  | some r =>
    rw [offered_some, offer]
    split
    · rename_i hspace
      rw [Bool.and_eq_true, decide_eq_true_eq] at hspace
      show (f.held ++ [r]).length ≤ capacity
      rw [List.length_append]
      exact hspace.2
    · exact h

theorem fits_skip (h : f.Fits) (count : Nat) : (f.skip count).Fits := by
  show (f.held.drop count).length ≤ capacity
  rw [List.length_drop]
  exact (Nat.sub_le _ _).trans h

end Feed

namespace Service

variable {s s' : Service} {name : Text} {f : Feed} {d : Deed} {deeds : List Deed}

/-- **What one deed does to a subscriber**: what it reads and what its feed holds behind that is what the
feed held before, and the response that the deed publishes, if the feed takes it. -/
theorem readBy_append_held (h : s.FeedsApart) (hf : s.feed? name = some f) (hfits : f.Fits)
    (hd : d ≠ .subscribe name) : ∃ f', (s.perform d).feed? name = some f' ∧ f'.Fits ∧
      f'.subscribed = (f.subscribed && d ≠ .unsubscribe name) ∧
      s.readBy name d ++ f'.held = f.taking (s.offer? name d).toList := by
  have hfeed := feed?_perform h d name
  rw [hf] at hfeed
  by_cases hconcerns : d.concerns name = true
  · cases d with
    | poll t site =>
      refine ⟨_, hfeed, Feed.fits_offered hfits _, ?_, ?_⟩
      · rw [Feed.subscribed_offered]
        simp
      · show (f.offered _).held = _
        rw [Feed.held_offered hfits, offer?, heldBy_eq hf]
    | subscribe n => exact absurd (congrArg Deed.subscribe (of_decide_eq_true hconcerns)) hd
    | unsubscribe n =>
      obtain rfl : n = name := of_decide_eq_true hconcerns
      exact ⟨f.close, hfeed.trans (if_pos rfl), hfits, by simp [Feed.close], f.taking_nil.symm⟩
    | read n count =>
      obtain rfl : n = name := of_decide_eq_true hconcerns
      refine ⟨f.skip count, hfeed.trans (if_pos rfl), Feed.fits_skip hfits count, by simp [Feed.skip], ?_⟩
      rw [readBy, if_pos rfl, read_eq, heldBy_eq hf]
      exact (List.take_append_drop count f.held).trans f.taking_nil.symm
  · replace hconcerns : d.concerns name = false := Bool.eq_false_iff.mpr hconcerns
    have hstays : d ≠ .unsubscribe name := by
      rintro rfl
      exact of_decide_eq_false hconcerns rfl
    rw [onFeed_of_not_concerns hconcerns] at hfeed
    refine ⟨f, hfeed, hfits, by simp [hstays], ?_⟩
    rw [readBy_of_not_concerns hconcerns, offer?, published?_of_not_concerns hconcerns]
    exact f.taking_nil.symm

/-- **What some deeds do to a subscriber** that stays subscribed all the time, or no more is. -/
theorem received_append_held (h : s.FeedsApart) (hf : s.feed? name = some f) (hfits : f.Fits)
    (hdeeds : .subscribe name ∉ deeds) (hstays : f.subscribed = true → .unsubscribe name ∉ deeds) :
    ∃ f', (s.performAll deeds).feed? name = some f' ∧ f'.Fits ∧
      s.received name deeds ++ f'.held = f.taking (s.offers name deeds) := by
  induction deeds generalizing s f with
  | nil => exact ⟨f, hf, hfits, f.taking_nil.symm⟩
  | cons d deeds ih =>
    have hd : d ≠ .subscribe name := (List.ne_of_not_mem_cons hdeeds).symm
    have hlater : .subscribe name ∉ deeds := List.not_mem_of_not_mem_cons hdeeds
    obtain ⟨f₁, hf₁, hfits₁, hsubscribed₁, hstep⟩ := readBy_append_held h hf hfits hd
    have hkept : f₁.subscribed = f.subscribed := by
      cases hsubscribed : f.subscribed with
      | false => rw [hsubscribed₁, hsubscribed, Bool.false_and]
      | true =>
        have hleaves : d ≠ .unsubscribe name := fun heq =>
          hstays hsubscribed (heq ▸ List.mem_cons_self)
        rw [hsubscribed₁, hsubscribed]
        simp [hleaves]
    have hstays₁ : f₁.subscribed = true → .unsubscribe name ∉ deeds := fun hsubscribed hmem =>
      hstays (hkept ▸ hsubscribed) (List.mem_cons_of_mem d hmem)
    obtain ⟨f', hf', hfits', hrun⟩ := ih (feedsApart_perform h d) hf₁ hfits₁ hlater hstays₁
    refine ⟨f', hf', hfits', ?_⟩
    rw [received, List.append_assoc, hrun, Feed.taking, ← List.append_assoc, hstep, hkept, Feed.taking,
      List.append_assoc, Feed.taking, offers, accepted_append]
    cases f.subscribed <;> rfl

/-- A subscriber that leaves reads what its feed holds then, and gets nothing more. -/
theorem received_append_held_of_leaves (h : s.FeedsApart) (hf : s.feed? name = some f) (hfits : f.Fits)
    (hdeeds : .subscribe name ∉ deeds) :
    ∃ f', (s.performAll (.unsubscribe name :: deeds)).feed? name = some f' ∧ f'.Fits ∧
      s.received name (.unsubscribe name :: deeds) ++ f'.held = f.held := by
  have happart := feedsApart_perform h (.unsubscribe name)
  have hclosed : (s.perform (.unsubscribe name)).feed? name = some f.close := by
    rw [feed?_perform h, hf]
    exact if_pos rfl
  obtain ⟨f', hf', hfits', hrun⟩ := received_append_held happart hclosed hfits hdeeds nofun
  rw [Feed.taking_of_not_subscribed rfl] at hrun
  exact ⟨f', hf', hfits', hrun⟩

/-- The deeds up to the first by which the subscriber of that name leaves. -/
def whileSubscribed (name : Text) (deeds : List Deed) : List Deed :=
  deeds.takeWhile (· ≠ .unsubscribe name)

theorem unsubscribe_not_mem_whileSubscribed (name : Text) (deeds : List Deed) :
    .unsubscribe name ∉ whileSubscribed name deeds := fun hmem => by
  simpa using List.mem_takeWhile_imp hmem

/-- Either it never leaves, or it does behind these deeds. -/
theorem eq_whileSubscribed_or (name : Text) (deeds : List Deed) : deeds = whileSubscribed name deeds ∨
    ∃ rest, deeds = whileSubscribed name deeds ++ .unsubscribe name :: rest := by
  have hsplit : whileSubscribed name deeds ++ deeds.dropWhile (· ≠ .unsubscribe name) = deeds :=
    List.takeWhile_append_dropWhile
  cases hrest : deeds.dropWhile (· ≠ .unsubscribe name) with
  | nil =>
    rw [hrest, List.append_nil] at hsplit
    exact Or.inl hsplit.symm
  | cons d rest =>
    have hd : ¬ decide (d ≠ .unsubscribe name) = true := by
      have hhead := List.head?_dropWhile_not (fun e => decide (e ≠ .unsubscribe name)) deeds
      rw [hrest] at hhead
      simpa using hhead
    rw [decide_eq_true_eq, not_not] at hd
    rw [hrest, hd] at hsplit
    exact Or.inr ⟨rest, hsplit.symm⟩

/-- **What a subscriber gets** from the moment it subscribes: what it reads and what is left over are what
its feed took before it left. -/
theorem received_append_heldBy (h : s.FeedsApart) (name : Text) (hdeeds : .subscribe name ∉ deeds) :
    (s.subscribe name).received name deeds ++ ((s.subscribe name).performAll deeds).heldBy name
        = accepted ((s.subscribe name).offers name (whileSubscribed name deeds)) ∧
      (((s.subscribe name).performAll deeds).heldBy name).length ≤ Feed.capacity := by
  have happart : (s.subscribe name).FeedsApart := feedsApart_subscribe h name
  have hnew : (s.subscribe name).feed? name = some {} := by rw [feed?_subscribe h, if_pos rfl]
  have hearlier : .subscribe name ∉ whileSubscribed name deeds := fun hmem =>
    hdeeds (List.takeWhile_subset _ hmem)
  obtain ⟨f₁, hf₁, hfits₁, hopen⟩ := received_append_held happart hnew (Nat.zero_le _)
    hearlier fun _ => unsubscribe_not_mem_whileSubscribed name deeds
  obtain hall | ⟨rest, hsplit⟩ := eq_whileSubscribed_or name deeds
  · rw [← hall] at hf₁ hopen
    rw [heldBy_eq hf₁, ← hall]
    exact ⟨hopen, hfits₁⟩
  · generalize whileSubscribed name deeds = earlier at *
    subst hsplit
    have hrest : .subscribe name ∉ rest := fun hmem =>
      hdeeds (List.mem_append_right earlier (List.mem_cons_of_mem _ hmem))
    obtain ⟨f₂, hf₂, hfits₂, hleft⟩ := received_append_held_of_leaves
      (feedsApart_performAll happart earlier) hf₁ hfits₁ hrest
    rw [performAll_append, heldBy_eq hf₂, received_append, List.append_assoc, hleft]
    exact ⟨hopen, hfits₂⟩

/-! ## Independence -/

end Service

namespace Poller

/-- The poller without its feeds. -/
def core (p : Poller) : Poller := { p with feeds := [] }

/-- **A poll does not look at feeds**, neither for what it records nor for what it publishes. -/
theorem core_take (p : Poller) (now : Timestamp) (stats : Except Failure (List Snapshot)) :
    (p.core.take now stats).1.core = (p.take now stats).1.core ∧
      published? (p.core.take now stats) now = published? (p.take now stats) now := by
  unfold take core
  dsimp only
  split
  · exact ⟨rfl, rfl⟩
  · exact ⟨rfl, rfl⟩
  · split
    · exact ⟨rfl, rfl⟩
    · split <;> exact ⟨rfl, rfl⟩

end Poller

namespace Service

variable {s s' : Service} {name : Text} {d : Deed} {deeds : List Deed}

/-- Between these services the subscriber of that name sees no difference, and neither does a poll. -/
structure SameFor (name : Text) (s s' : Service) : Prop where
  collector : s'.collector = s.collector
  core : s'.poller.core = s.poller.core
  feed : s'.feed? name = s.feed? name

theorem core_changeFeed (s : Service) (n : Text) (f : Feed → Feed) :
    (s.changeFeed n f).poller.core = s.poller.core := by
  unfold changeFeed
  split <;> rfl

/-- What a deed does to the poller without its feeds, and what it publishes, does not depend on feeds. -/
theorem core_perform (hcollector : s'.collector = s.collector) (hcore : s'.poller.core = s.poller.core)
    (d : Deed) : (s'.perform d).poller.core = (s.perform d).poller.core ∧
      s'.published? d = s.published? d := by
  cases d with
  | poll t site =>
    have hcollected := collected_congr hcollector t site
    obtain ⟨hcore', hpublished'⟩ := s'.poller.core_take t ((s.meet t site).collected t).1
    obtain ⟨hcore₁, hpublished₁⟩ := s.poller.core_take t ((s.meet t site).collected t).1
    rw [hcore] at hcore' hpublished'
    constructor
    · show (s'.poller.take t ((s'.meet t site).collected t).1).1.core
        = (s.poller.take t ((s.meet t site).collected t).1).1.core
      rw [hcollected, ← hcore', hcore₁]
    · show Poller.published? (s'.poller.take t ((s'.meet t site).collected t).1) t
        = Poller.published? (s.poller.take t ((s.meet t site).collected t).1) t
      rw [hcollected, ← hpublished', hpublished₁]
  | subscribe n => exact ⟨hcore, rfl⟩
  | unsubscribe n =>
    rw [perform_unsubscribe, perform_unsubscribe, core_changeFeed, core_changeFeed]
    exact ⟨hcore, rfl⟩
  | read n count =>
    rw [perform_read, perform_read, core_changeFeed, core_changeFeed]
    exact ⟨hcore, rfl⟩

theorem core_of_not_concerns (h : d.concerns name = false) :
    (s.perform d).poller.core = s.poller.core := by
  cases d with
  | poll t site => cases h
  | subscribe n => rfl
  | unsubscribe n => rw [perform_unsubscribe, core_changeFeed]
  | read n count => rw [perform_read, core_changeFeed]

/-- A deed that does not concern a subscriber makes no difference to it. -/
theorem sameFor_perform_left (h : SameFor name s s') (hs : s.FeedsApart) (hd : d.concerns name = false) :
    SameFor name (s.perform d) s' := by
  refine ⟨?_, ?_, ?_⟩
  · rw [collector_perform]
    exact h.collector
  · rw [core_of_not_concerns hd]
    exact h.core
  · rw [feed?_perform hs, onFeed_of_not_concerns hd]
    exact h.feed

/-- Any other deed keeps what is equal equal, and brings the subscriber the same. -/
theorem sameFor_perform (h : SameFor name s s') (hs : s.FeedsApart) (hs' : s'.FeedsApart) (d : Deed) :
    SameFor name (s.perform d) (s'.perform d) ∧ s'.readBy name d = s.readBy name d := by
  obtain ⟨hcore, hpublished⟩ := core_perform h.collector h.core d
  refine ⟨⟨?_, hcore, ?_⟩, ?_⟩
  · rw [collector_perform, collector_perform]
    exact h.collector
  · rw [feed?_perform hs', feed?_perform hs, hpublished, h.feed]
  · cases d with
    | read n count =>
      rw [readBy, readBy]
      by_cases hn : n = name
      · rw [if_pos hn, if_pos hn, read_eq, read_eq, hn, heldBy, h.feed, heldBy]
      · rw [if_neg hn, if_neg hn]
    | _ => rfl

/-- **Deeds that do not concern a subscriber might as well not be done.** -/
theorem sameFor_performAll (h : SameFor name s s') (hs : s.FeedsApart) (hs' : s'.FeedsApart)
    (deeds : List Deed) :
    SameFor name (s.performAll deeds) (s'.performAll (deeds.filter (·.concerns name))) ∧
      s'.received name (deeds.filter (·.concerns name)) = s.received name deeds := by
  induction deeds generalizing s s' with
  | nil => exact ⟨h, rfl⟩
  | cons d deeds ih =>
    by_cases hd : d.concerns name = true
    · obtain ⟨hstep, hread⟩ := sameFor_perform h hs hs' d
      obtain ⟨hrun, hreceived⟩ := ih hstep (feedsApart_perform hs d) (feedsApart_perform hs' d)
      rw [List.filter_cons_of_pos hd]
      refine ⟨hrun, ?_⟩
      rw [received, received, hread, hreceived]
    · have hother : d.concerns name = false := Bool.eq_false_iff.mpr hd
      obtain ⟨hrun, hreceived⟩ := ih (sameFor_perform_left h hs hother) (feedsApart_perform hs d) hs'
      rw [List.filter_cons_of_neg hd]
      refine ⟨hrun, ?_⟩
      rw [received, readBy_of_not_concerns hother, hreceived]
      rfl

/-! ## The feed of a subscriber -/

/-- **What a subscriber gets.** What it reads and what is left over are, in order, the responses published
while it was subscribed, without those that met its feed full, and its feed never holds more than it may.
In runs that differ only in what other subscribers do it reads the same, its feed is the same, and so is
the poller. -/
theorem subscriber_gets (s : Service) (hnone : s.subscriptions = []) (name : Text) :
    (∀ before later, .subscribe name ∉ later →
      let opened := (s.performAll before).subscribe name
      opened.received name later ++ (opened.performAll later).heldBy name
          = accepted (opened.offers name (whileSubscribed name later)) ∧
        ((opened.performAll later).heldBy name).length ≤ Feed.capacity) ∧
    ∀ deeds deeds', deeds.filter (·.concerns name) = deeds'.filter (·.concerns name) →
      s.received name deeds = s.received name deeds' ∧
        SameFor name (s.performAll deeds) (s.performAll deeds') := by
  have happart : s.FeedsApart := feedsApart_of_none hnone
  refine ⟨fun before later hlater => ?_, fun deeds deeds' hsame => ?_⟩
  · exact received_append_heldBy (feedsApart_performAll happart before) name hlater
  · -- both runs are equal to the one with the deeds that concern the subscriber
    have hrefl : SameFor name s s := ⟨rfl, rfl, rfl⟩
    obtain ⟨hrun, hreceived⟩ := sameFor_performAll hrefl happart happart deeds
    obtain ⟨hrun', hreceived'⟩ := sameFor_performAll hrefl happart happart deeds'
    rw [hsame] at hrun hreceived
    refine ⟨hreceived.symm.trans hreceived', ?_⟩
    exact ⟨hrun'.collector.symm.trans hrun.collector, hrun'.core.symm.trans hrun.core,
      hrun'.feed.symm.trans hrun.feed⟩

/-- A subscriber that is slow: it reads nothing before its feed is full, and leaves before the last poll. -/
def slowly : List Deed :=
  [pollAt 1, pollAt 2, .subscribe "d", pollAt 3, pollAt 4, pollAt 5, .read "c" 2, .read "d" 1, pollAt 6,
    .unsubscribe "c", pollAt 7, .read "c" 4]

/-- It misses the fifth poll, which met its feed full, and the seventh; another subscriber makes no
difference to that. -/
theorem subscriber_gets_slowly :
    let opened := (idle.performAll []).subscribe "c"
    idle.subscriptions = [] ∧ .subscribe "c" ∉ slowly ∧
      (opened.received "c" slowly).map (·.updatedAt) = [1, 2, 3, 4, 6] ∧
      accepted (opened.offers "c" (whileSubscribed "c" slowly)) = opened.received "c" slowly ∧
      SameFor "c" (idle.performAll slowly) (idle.performAll (slowly.filter (·.concerns "c"))) := by
  intro opened
  obtain ⟨hgets, hsame⟩ := subscriber_gets idle rfl "c"
  obtain ⟨htaken, -⟩ := hgets [] slowly (by decide)
  have hread : (opened.performAll slowly).heldBy "c" = [] := by decide +kernel
  refine ⟨rfl, by decide, by decide +kernel, ?_, ?_⟩
  · rw [← htaken]
    show _ ++ (opened.performAll slowly).heldBy "c" = _
    rw [hread, List.append_nil]
  · exact (hsame slowly _ (by rw [List.filter_filter]; simp)).2

end Service

end CakeMonitor
