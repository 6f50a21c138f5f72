import CakeMonitor.Proofs.Service.Subscribers

/-!
# Skipped polls leave no trace

A poll for which nothing is collected is skipped, and all that changes is the word of the last failure.
No poll and no subscriber looks at that word. So polls that are skipped might as well not have been
tried: the next one that is completed is recorded behind the last one that was.

A poll that breaks off or is stopped does not return, and is neither skipped nor successful.

* `Service.result?`, `Service.withoutSkipped`: how a poll ends, and the deeds that are no skipped polls.
* `Service.Alike`: services that differ in that word at most; `alike_performAll`.
* `Service.Verdict`, `Service.verdicts`: what polls return; `lastError_performAll`.
* `Service.skipped_polls_leave_no_trace`: both together.
-/

namespace CakeMonitor

namespace Service

/-- What a poll returns: it has succeeded, or nothing was collected. -/
inductive Verdict where
  | success
  | failure (e : Failure)
  deriving DecidableEq

/-- The word of the last failure, after a poll that may have returned something. -/
def Verdict.word (before : Option Text) : Option Verdict → Option Text
  | none => before
  | some .success => none
  | some (.failure e) => some (Poller.describe e)

end Service

namespace Poller

open Service (Verdict)

/-- What a poll returns that ends so, if it returns. -/
def verdict? (stats : Except Failure (List Snapshot)) (result : PollResult) : Option Verdict :=
  match stats, result with
  | .error e, .skipped => some (.failure e)
  | _, .completed => some .success
  | _, _ => none

variable {p : Poller} {now : Timestamp} {stats : Except Failure (List Snapshot)}

/-- **A poll does not look at the last failure.** -/
theorem take_lastError (p : Poller) (now : Timestamp) (stats : Except Failure (List Snapshot))
    (word : Option Text) : ∃ word', { p with lastError := word }.take now stats
      = ({ (p.take now stats).1 with lastError := word' }, (p.take now stats).2) := by
  unfold take
  dsimp only
  split
  · exact ⟨word, rfl⟩
  · exact ⟨_, rfl⟩
  · split
    · exact ⟨word, rfl⟩
    · split
      · exact ⟨word, rfl⟩
      · exact ⟨none, rfl⟩

/-- A poll that is skipped changes nothing else. -/
theorem take_of_skipped (h : (p.take now stats).2 = .skipped) :
    ∃ word, (p.take now stats).1 = { p with lastError := word } := by
  unfold take at h ⊢
  split
  · exact ⟨_, rfl⟩
  · exact ⟨_, rfl⟩
  · split
    · exact ⟨_, rfl⟩
    · split
      · simp [*] at h
      · simp [*] at h

theorem lastError_take (p : Poller) (now : Timestamp) (stats : Except Failure (List Snapshot)) :
    (p.take now stats).1.lastError
      = Verdict.word p.lastError (verdict? stats (p.take now stats).2) := by
  unfold take
  split
  · rfl
  · rfl
  · split
    · rfl
    · split <;> rfl

end Poller

namespace Service

/-! ## Without the polls that are skipped -/

/-- How the poll of a deed ends. -/
def result? (s : Service) : Deed → Option PollResult
  | .poll t site => some (s.meet t site).poll.2
  | _ => none

/-- The deeds without the polls that are skipped. -/
def withoutSkipped (s : Service) : List Deed → List Deed
  | [] => []
  | d :: deeds =>
    if s.result? d = some .skipped then (s.perform d).withoutSkipped deeds
    else d :: (s.perform d).withoutSkipped deeds

/-- The services differ at most in the word of the last failure, in the site and in the clock. -/
structure Alike (s s' : Service) : Prop where
  collector : s'.collector = s.collector
  subscriptions : s'.subscriptions = s.subscriptions
  poller : ∃ word, s'.poller = { s.poller with lastError := word }

variable {s s' : Service} {d : Deed} {deeds : List Deed}

theorem Alike.feed? (h : Alike s s') (name : Text) : s'.feed? name = s.feed? name := by
  obtain ⟨word, hpoller⟩ := h.poller
  unfold Service.feed?
  rw [h.subscriptions, hpoller]

theorem Alike.readBy (h : Alike s s') (name : Text) (d : Deed) :
    s'.readBy name d = s.readBy name d := by
  cases d with
  | read n count =>
    rw [Service.readBy, Service.readBy, read_eq, read_eq, heldBy, h.feed?, heldBy]
  | _ => rfl

theorem alike_changeFeed (h : Alike s s') (n : Text) (f : Feed → Feed) :
    Alike (s.changeFeed n f) (s'.changeFeed n f) := by
  obtain ⟨word, hpoller⟩ := h.poller
  cases hk : named? n s.subscriptions with
  | none =>
    rw [changeFeed_of_none hk, changeFeed_of_none (h.subscriptions ▸ hk)]
    exact h
  | some k =>
    rw [changeFeed_of_some hk, changeFeed_of_some (h.subscriptions ▸ hk), hpoller]
    exact ⟨h.collector, h.subscriptions, word, rfl⟩

/-- Every deed keeps services alike. -/
theorem alike_perform (h : Alike s s') (d : Deed) : Alike (s.perform d) (s'.perform d) := by
  obtain ⟨word, hpoller⟩ := h.poller
  cases d with
  | poll t site =>
    have hcollected := collected_congr h.collector t site
    obtain ⟨word', htake⟩ := s.poller.take_lastError t ((s.meet t site).collected t).1 word
    refine ⟨h.collector, h.subscriptions, word', ?_⟩
    show (s'.poller.take t ((s'.meet t site).collected t).1).1 = _
    rw [hcollected, hpoller, htake]
    rfl
  | subscribe n =>
    refine ⟨h.collector, ?_, word, ?_⟩
    · show (n, s'.poller.feeds.length) :: s'.subscriptions = (n, s.poller.feeds.length) :: s.subscriptions
      rw [hpoller, h.subscriptions]
    · show s'.poller.subscribe = _
      rw [hpoller]
      rfl
  | unsubscribe n =>
    rw [perform_unsubscribe, perform_unsubscribe]
    exact alike_changeFeed h n Feed.close
  | read n count =>
    rw [perform_read, perform_read]
    exact alike_changeFeed h n (Feed.skip count)

/-- And so does a poll that is skipped, on one side alone. -/
theorem alike_perform_left (h : Alike s s') (hd : s.result? d = some .skipped) :
    Alike (s.perform d) s' ∧ ∀ name, s.readBy name d = [] := by
  cases d with
  | poll t site =>
    obtain ⟨word, hskipped⟩ := Poller.take_of_skipped (Option.some.inj hd)
    obtain ⟨word', hpoller⟩ := h.poller
    refine ⟨⟨h.collector, h.subscriptions, word', ?_⟩, fun name => rfl⟩
    rw [hpoller]
    show _ = { (s.poller.take t _).1 with lastError := word' }
    rw [show (s.poller.take t _).1 = _ from hskipped]
    rfl
  | subscribe n => cases hd
  | unsubscribe n => cases hd
  | read n count => cases hd

/-- **Polls that are skipped might as well not have been tried.** -/
theorem alike_performAll (h : Alike s s') (deeds : List Deed) :
    Alike (s.performAll deeds) (s'.performAll (s.withoutSkipped deeds)) ∧
      ∀ name, s'.received name (s.withoutSkipped deeds) = s.received name deeds := by
  induction deeds generalizing s s' with
  | nil => exact ⟨h, fun name => rfl⟩
  | cons d deeds ih =>
    unfold withoutSkipped
    by_cases hd : s.result? d = some .skipped
    · rw [if_pos hd]
      obtain ⟨hskip, hread⟩ := alike_perform_left h hd
      obtain ⟨hrun, hreceived⟩ := ih hskip
      refine ⟨hrun, fun name => ?_⟩
      rw [hreceived, received, hread]
      rfl
    · rw [if_neg hd]
      obtain ⟨hrun, hreceived⟩ := ih (alike_perform h d)
      refine ⟨hrun, fun name => ?_⟩
      rw [received, received, h.readBy, hreceived]

/-! ## The word of the last failure -/

/-- What the poll of a deed returns. -/
def verdict? (s : Service) : Deed → Option Verdict
  | .poll t site => Poller.verdict? ((s.meet t site).collected t).1 (s.meet t site).poll.2
  | _ => none

/-- What polls return in the course of some deeds. -/
def verdicts (s : Service) : List Deed → List Verdict
  | [] => []
  | d :: deeds => (s.verdict? d).toList ++ (s.perform d).verdicts deeds

theorem lastError_changeFeed (s : Service) (n : Text) (f : Feed → Feed) :
    (s.changeFeed n f).poller.lastError = s.poller.lastError := by
  unfold changeFeed
  split <;> rfl

theorem lastError_perform (s : Service) (d : Deed) :
    (s.perform d).poller.lastError = Verdict.word s.poller.lastError (s.verdict? d) := by
  cases d with
  | poll t site => exact s.poller.lastError_take t ((s.meet t site).collected t).1
  | subscribe n => rfl
  | unsubscribe n => rw [perform_unsubscribe, lastError_changeFeed]; rfl
  | read n count => rw [perform_read, lastError_changeFeed]; rfl

/-- **The last failure is that of the last poll that returned**, if that one has failed. -/
theorem lastError_performAll (s : Service) (deeds : List Deed) : (s.performAll deeds).poller.lastError
    = Verdict.word s.poller.lastError (s.verdicts deeds).getLast? := by
  induction deeds generalizing s with
  | nil => rfl
  | cons d deeds ih =>
    have hrun := ih (s.perform d)
    rw [lastError_perform] at hrun
    rw [verdicts, List.getLast?_append]
    refine hrun.trans ?_
    cases (s.perform d).verdicts deeds |>.getLast? with
    | none => cases s.verdict? d <;> rfl
    | some v => cases v <;> rfl

/-! ## Both together -/

/-- **Skipped polls leave no trace.** Without them the history, the latest snapshots and their time, all
feeds and all that subscribers read are the same; and the last failure is that of the last poll that
returned, if there was one and it failed. -/
theorem skipped_polls_leave_no_trace (s : Service) (hnew : s.poller.lastError = none)
    (deeds : List Deed) :
    (∃ word, (s.performAll (s.withoutSkipped deeds)).poller
        = { (s.performAll deeds).poller with lastError := word }) ∧
      (s.performAll (s.withoutSkipped deeds)).subscriptions = (s.performAll deeds).subscriptions ∧
      (∀ name, s.received name (s.withoutSkipped deeds) = s.received name deeds) ∧
      ((s.performAll deeds).poller.lastError = none
        ↔ s.verdicts deeds = [] ∨ (s.verdicts deeds).getLast? = some .success) ∧
      ∀ e, (s.verdicts deeds).getLast? = some (.failure e) →
        (s.performAll deeds).poller.lastError = some (Poller.describe e) := by
  have halike : Alike s s := ⟨rfl, rfl, s.poller.lastError, rfl⟩
  obtain ⟨hrun, hreceived⟩ := alike_performAll halike deeds
  have hword := lastError_performAll s deeds
  rw [hnew] at hword
  refine ⟨hrun.poller, hrun.subscriptions, hreceived, ?_, ?_⟩
  · rw [hword, ← List.getLast?_eq_none_iff]
    cases (s.verdicts deeds).getLast? with
    | none => simp [Verdict.word]
    | some v => cases v <;> simp [Verdict.word]
  · intro e he
    rw [hword, he]
    rfl

/-- A poll whose program cannot be started. -/
def failAt (t : Timestamp) : Deed :=
  .poll t { world := { runs := [{ fate := .refused ("gone" : Text) }] } }

/-- The program fails twice, and the subscriber reads as if it had not been run then. -/
def troubled : List Deed :=
  [.subscribe "c", pollAt 1, failAt 2, pollAt 3, .read "c" 2, failAt 4]

/-- The last failure is known, and nothing else is changed by it. -/
theorem skipped_polls_leave_no_trace_troubled : idle.poller.lastError = none ∧
    idle.withoutSkipped troubled = [.subscribe "c", pollAt 1, pollAt 3, .read "c" 2] ∧
    (∃ word, (idle.performAll [.subscribe "c", pollAt 1, pollAt 3, .read "c" 2]).poller
      = { (idle.performAll troubled).poller with lastError := word }) ∧
    (idle.received "c" troubled).map (·.updatedAt) = [1, 3] ∧
    (idle.performAll troubled).poller.lastError = some ("Failed to start tc: gone" : Text) := by
  have hkept : idle.withoutSkipped troubled = [.subscribe "c", pollAt 1, pollAt 3, .read "c" 2] := by
    decide +kernel
  obtain ⟨hpoller, -, -, -, hword⟩ := skipped_polls_leave_no_trace idle rfl troubled
  rw [hkept] at hpoller
  refine ⟨rfl, hkept, hpoller, by decide +kernel, ?_⟩
  exact hword (.command (.notStarted "tc" "gone")) (by decide +kernel)

end Service

end CakeMonitor
